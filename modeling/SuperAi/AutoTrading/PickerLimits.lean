import SuperAi.AutoTrading.Workers
import SuperAi.Foundations.InTurn
import Mathlib.Algebra.Order.BigOperators.Group.List
import Mathlib.Algebra.Order.Field.Basic

/-! # What the picker keeps to

`pickForUser` counts the open positions once and then opens as many as there were slots, one after the other; and it
reads the tokens to skip once, in two queries at once. Meanwhile positions are opened and closed by hand and by the
watcher. The picker never holds more positions than the user allows (`picker_capacity`) nor stakes more than these cost
(`picker_exposure`), whatever is opened by hand. It keeps to the cooldown (`picker_cooldown`) when in a pass nothing is
opened by hand, and nothing is closed between an answer on the closed trades and a later one on the open positions.
-/
namespace SuperAi.AutoTrading
open SuperAi.Auth SuperAi.Foundations SuperAi.HotTokens
set_option autoImplicit false

/-! ## The call that the picker waits for -/

/-- What a call is to open, as long as it may. -/
def AutoCall.input? : AutoCall → Option OpenAutoPositionInput
  | .findPortfolio input | .createPortfolio input | .openTx input _ | .findExisting input => some input
  | _ => none

theorem input?_guardBalance (input : OpenAutoPositionInput) (portfolio : AutoPortfolio) :
    (guardBalance input portfolio).input? = none ∨ (guardBalance input portfolio).input? = some input := by
  unfold guardBalance
  by_cases hlow : portfolio.currentBalanceUsd < input.sizeUsd
  · rw [if_pos hlow]
    exact .inl rfl
  · rw [if_neg hlow]
    exact .inr rfl

theorem input?_startOpen (input : OpenAutoPositionInput) :
    (startOpen input).input? = none ∨ (startOpen input).input? = some input := by
  unfold startOpen
  by_cases hpos : input.entryPriceUsd ≤ 0 ∨ input.sizeUsd ≤ 0
  · rw [if_pos hpos]
    exact .inl rfl
  · rw [if_neg hpos]
    exact .inr rfl

theorem Advanced.input? {b b' : AutoBook} {now : ℤ} {call next : AutoCall} (h : Advanced b now call b' next) :
    next.input? = none ∨ next.input? = call.input? := by
  cases h with
  | portfolio input portfolio => exact input?_guardBalance input portfolio
  | created input portfolio => exact input?_guardBalance input portfolio
  | noPortfolio => exact .inr rfl
  | taken => exact .inr rfl
  | _ => exact .inl rfl

/-- The picker has at most one position under way, that of the token it has come to. -/
structure Awaited (s : Trader) : Prop where
  calls : ∀ j c input, s.desk.calls[j]? = some c → c.input? = some input →
    input.source = some "manual" ∨ ∃ pass todo, s.picker = .opening j pass todo
  waits : ∀ i pass todo, s.picker = .opening i pass todo → (pass.picked : ℤ) < pass.slots ∧
    ∃ t c, pass.tokens[pass.next - 1]? = some t ∧ 0 < pass.next ∧ pass.wants t = true ∧
      s.desk.calls[i]? = some c ∧ ∀ input, c.input? = some input → input = pickInput pass.row t

namespace Awaited
variable {s s' : Trader}

theorem initial : Awaited {} where
  calls j c input hc := by simp at hc
  waits i pass todo hp := by cases hp

/-- A call that starts, while the picker stays where it is. -/
theorem call (h : Awaited s) {call : AutoCall}
    (hcall : ∀ input, call.input? = some input → input.source = some "manual") : Awaited (s.call call) where
  calls j c input hc hinput := by
    obtain hc | ⟨-, rfl⟩ := getElem?_snoc hc
    · exact h.calls j c input hc hinput
    · exact .inl (hcall input hinput)
  waits i pass todo hp := by
    obtain ⟨hroom, t, c, ht, hnext, hwants, hc, hinput⟩ := h.waits i pass todo hp
    refine ⟨hroom, t, c, ht, hnext, hwants, ?_, hinput⟩
    exact (List.getElem?_append_left (List.getElem?_eq_some_iff.mp hc).1).trans hc

/-- A new call is not the one that the picker waits for. -/
theorem getElem?_call (h : Awaited s) {i : ℕ} {pass : Pass} {todo : List PickerRow}
    (hp : s.picker = .opening i pass todo) (call : AutoCall) :
    (s.desk.calls ++ [call])[i]? = s.desk.calls[i]? := by
  obtain ⟨-, t, c, -, -, -, hc, -⟩ := h.waits i pass todo hp
  exact List.getElem?_append_left (List.getElem?_eq_some_iff.mp hc).1

/-- The picker goes on, with no position under way. -/
theorem moved (h : Awaited s) (hdesk : s'.desk = s.desk)
    (hidle : ∀ i pass todo, s.picker = .opening i pass todo → ∃ c, s.desk.calls[i]? = some c ∧ c.input? = none)
    (hpicker : ∀ i pass todo, s'.picker ≠ .opening i pass todo) : Awaited s' where
  calls j c input hc hinput := by
    rw [hdesk] at hc
    obtain hmanual | ⟨pass, todo, hp⟩ := h.calls j c input hc hinput
    · exact .inl hmanual
    · obtain ⟨c', hc', hnone⟩ := hidle j pass todo hp
      rw [hc] at hc'
      obtain rfl := Option.some.inj hc'
      rw [hnone] at hinput
      cases hinput
  waits i pass todo hp := absurd hp (hpicker i pass todo)

theorem kept (h : Awaited s) (hdesk : s'.desk = s.desk) (hpicker : s'.picker = s.picker) : Awaited s' := by
  refine ⟨?_, ?_⟩
  · rw [hdesk, hpicker]
    exact h.calls
  · rw [hdesk, hpicker]
    exact h.waits

theorem advance (h : Awaited s) {i : ℕ} {now : ℤ} {call next : AutoCall} {book : AutoBook} {closings : List Closing}
    (hcall : s.desk.calls[i]? = some call) (hstep : Advanced s.desk.book now call book next) :
    Awaited { s with desk := ⟨book, s.desk.calls.set i next⟩, closings, clock := now } where
  calls j c input hc hinput := by
    obtain ⟨rfl, rfl⟩ | hc := getElem?_set_cases hcall hc
    · obtain hnone | hsame := hstep.input?
      · rw [hnone] at hinput
        cases hinput
      · exact h.calls j call input hcall (hsame ▸ hinput)
    · exact h.calls j c input hc hinput
  waits j pass todo hp := by
    obtain ⟨hroom, t, c, ht, hnext, hwants, hc, hinput⟩ := h.waits j pass todo hp
    by_cases hj : j = i
    · subst hj
      rw [hcall] at hc
      obtain rfl := Option.some.inj hc
      refine ⟨hroom, t, next, ht, hnext, hwants, ?_, fun input hsome => ?_⟩
      · exact List.getElem?_set_self (List.getElem?_eq_some_iff.mp hcall).1
      · obtain hnone | hsame := hstep.input?
        · rw [hnone] at hsome
          cases hsome
        · exact hinput input (hsame ▸ hsome)
    · refine ⟨hroom, t, c, ht, hnext, hwants, ?_, hinput⟩
      exact (List.getElem?_set_ne (Ne.symm hj)).trans hc

/-- The picker starts a call for the next token. -/
theorem chosen (h : Awaited s) {pass : Pass} {todo : List PickerRow} {t : HotToken} (hp : s.picker = .picking pass todo)
    (hroom : (pass.picked : ℤ) < pass.slots) (ht : pass.tokens[pass.next]? = some t) (hwants : pass.wants t = true) :
    Awaited { s.call (startOpen (pickInput pass.row t)) with
      picker := .opening s.desk.calls.length { pass with next := pass.next + 1 } todo } where
  calls j c input hc hinput := by
    obtain hc | ⟨rfl, -⟩ := getElem?_snoc hc
    · obtain hmanual | ⟨_, _, hopening⟩ := h.calls j c input hc hinput
      · exact .inl hmanual
      · rw [hp] at hopening
        cases hopening
    · exact .inr ⟨_, _, rfl⟩
  waits i pass' todo' hp' := by
    obtain ⟨rfl, rfl, rfl⟩ : s.desk.calls.length = i ∧ { pass with next := pass.next + 1 } = pass' ∧ todo = todo' := by
      simpa using hp'
    refine ⟨hroom, t, _, ht, Nat.succ_pos _, hwants, List.getElem?_concat_length, fun input hinput => ?_⟩
    obtain hnone | hsome := input?_startOpen (pickInput pass.row t)
    · rw [hnone] at hinput
      cases hinput
    · rw [hsome] at hinput
      exact (Option.some.inj hinput).symm

theorem step (h : Awaited s) {e : TraderStep} (hstep : trader.step s e = some s') : Awaited s' := by
  -- between two positions nothing is under way
  have hnot : ∀ {picker : Picker}, s.picker = picker → (∀ i pass todo, picker ≠ .opening i pass todo) →
      ∀ i pass todo, s.picker = .opening i pass todo → ∃ c, s.desk.calls[i]? = some c ∧ c.input? = none :=
    fun hp hne i pass todo hopening => absurd (hp.symm.trans hopening) (hne i pass todo)
  have hread : ∀ row tokens slots readAt openAddrs recentClosed todo i pass todo',
      Picker.read row tokens slots readAt openAddrs recentClosed todo ≠ .opening i pass todo' := by
    intro row tokens slots readAt openAddrs recentClosed todo i pass todo'
    unfold Picker.read
    split
    · simp
    · simp
  cases stepped hstep with
  | openManual userId dto hsize =>
    refine h.call fun input hinput => ?_
    obtain hnone | hsome := input?_startOpen (dto.input userId)
    · rw [hnone] at hinput
      cases hinput
    · rw [hsome] at hinput
      exact Option.some.inj hinput ▸ rfl
  | closeManual userId id exitPriceUsd p => exact h.call fun input hinput => by cases hinput
  | reset userId => exact h.call fun input hinput => by cases hinput
  | advance i now call next book hcall hadvanced => exact h.advance hcall hadvanced
  | fired now p todo liveByAddr px decision hw hdecide =>
    have hcall : Awaited (s.call (.findPosition p.id decision)) := h.call fun input hinput => by cases hinput
    exact hcall.kept rfl rfl
  | settings userId patch now =>
    refine ⟨h.calls, h.waits⟩
  | pick hp => exact h.moved rfl (hnot hp (by simp)) (by simp)
  | pickOver scan hp => exact h.moved rfl (hnot hp (by simp)) (by simp)
  | passOver scan row todo hp => exact h.moved rfl (hnot hp (by simp)) (by simp)
  | counted scan row todo slots hp hslots hcount => exact h.moved rfl (hnot hp (by simp)) (by simp)
  | since now row tokens slots todo hp => exact h.moved rfl (hnot hp (by simp)) (by simp)
  | readOpenAddrs row tokens slots readAt recentClosed todo hp =>
    exact h.moved rfl (hnot hp (by simp)) (hread _ _ _ _ _ _ _)
  | readRecentClosed row tokens slots readAt openAddrs todo hp =>
    exact h.moved rfl (hnot hp (by simp)) (hread _ _ _ _ _ _ _)
  | passEnds pass todo hp => exact h.moved rfl (hnot hp (by simp)) (by simp)
  | skipped pass todo hp => exact h.moved rfl (hnot hp (by simp)) (by simp)
  | chosen pass todo t hp hroom ht hwants => exact h.chosen hp hroom ht hwants
  | picked i pass todo position hp hcall =>
    refine h.moved rfl (fun j pass' todo' hopening => ?_) (by simp)
    obtain ⟨rfl, -, -⟩ : i = j ∧ pass = pass' ∧ todo = todo' := by simpa using hp.symm.trans hopening
    exact ⟨_, hcall, rfl⟩
  | unpicked i pass todo hp hcall =>
    refine h.moved rfl (fun j pass' todo' hopening => ?_) (by simp)
    obtain ⟨rfl, -, -⟩ : i = j ∧ pass = pass' ∧ todo = todo' := by simpa using hp.symm.trans hopening
    exact ⟨_, hcall, rfl⟩
  | _ => exact h.kept rfl rfl

end Awaited

/-! ## The number of positions -/

/-- The open positions of a user that the picker has opened. -/
def pickedCount (b : AutoBook) (userId : String) : ℕ :=
  b.positions.rows.countP fun p => p.userId = userId ∧ p.source = "auto_picker"

/-- The call has given a position. -/
def AutoCall.gave : AutoCall → Bool
  | .opened (some _) => true
  | _ => false

/-- How many more positions the picker may open for a user before it counts again. -/
def Picker.left (calls : List AutoCall) (userId : String) : Picker → ℤ
  | .counted row _ slots _ | .reading row _ slots _ _ _ _ => if row.userId = userId then max 0 slots else 0
  | .picking pass _ => if pass.row.userId = userId then max 0 (pass.slots - pass.picked) else 0
  | .opening i pass _ =>
    if pass.row.userId = userId then
      max 0 (pass.slots - pass.picked - if (calls[i]?).any AutoCall.gave then 1 else 0)
    else 0
  | .idle | .users _ => 0

/-- The rows of the portfolios that the picker has read. -/
def Picker.rows : Picker → List PickerRow
  | .idle => []
  | .users todo => todo
  | .counted row _ _ todo | .reading row _ _ _ _ _ todo => row :: todo
  | .picking pass todo | .opening _ pass todo => pass.row :: todo

theorem Picker.read_rows (row : PickerRow) (tokens : List HotToken) (slots readAt : ℤ)
    (openAddrs recentClosed : Option (List String)) (todo : List PickerRow) :
    (Picker.read row tokens slots readAt openAddrs recentClosed todo).rows = row :: todo := by
  unfold Picker.read
  split <;> rfl

/-- A pass goes by settings that the user has had. -/
theorem rows_step {P : PickerSettings → Prop} {u : String} {s s' : Trader} {e : TraderStep}
    (hsettings : P (s.settingsOf u)) (hrows : ∀ row ∈ s.picker.rows, row.userId = u → P row.settings)
    (hstep : trader.step s e = some s') :
    ∀ row ∈ s'.picker.rows, row.userId = u → P row.settings := by
  have hsame : ∀ {picker : Picker}, s.picker = picker → ∀ row ∈ picker.rows, row.userId = u → P row.settings :=
    fun hp row hrow => hrows row (hp ▸ hrow)
  cases stepped hstep with
  | pick hp =>
    intro row hrow hu
    obtain ⟨entry, -, rfl⟩ := List.mem_map.mp hrow
    obtain rfl := hu
    exact hsettings
  | pickOver scan hp => exact fun _ hrow => absurd hrow List.not_mem_nil
  | passOver scan row todo hp => exact fun _ hrow => hsame hp _ (List.mem_cons_of_mem _ hrow)
  | counted scan row todo slots hp hslots hcount => exact fun _ hrow => hsame hp _ hrow
  | since now row tokens slots todo hp => exact fun _ hrow => hsame hp _ hrow
  | readOpenAddrs row tokens slots readAt recentClosed todo hp =>
    intro row' hrow
    change row' ∈ (Picker.read _ _ _ _ _ _ _).rows at hrow
    rw [Picker.read_rows] at hrow
    exact hsame hp _ hrow
  | readRecentClosed row tokens slots readAt openAddrs todo hp =>
    intro row' hrow
    change row' ∈ (Picker.read _ _ _ _ _ _ _).rows at hrow
    rw [Picker.read_rows] at hrow
    exact hsame hp _ hrow
  | passEnds pass todo hp => exact fun _ hrow => hsame hp _ (List.mem_cons_of_mem _ hrow)
  | skipped pass todo hp => exact fun _ hrow => hsame hp _ hrow
  | chosen pass todo t hp hroom ht hwants => exact fun _ hrow => hsame hp _ hrow
  | picked i pass todo position hp hcall => exact fun _ hrow => hsame hp _ hrow
  | unpicked i pass todo hp hcall => exact fun _ hrow => hsame hp _ hrow
  | _ => exact hrows

section Capacity
variable (M : ℤ) (u : String)

/-- The user never allows more than `M` positions. -/
def AllowsAtMost (_ : Trader) : TraderStep → Prop
  | .updatePortfolioSettings userId patch _ => userId = u → ∀ n ∈ patch.maxConcurrent, max 1 (min 100 n) ≤ M
  | _ => True

instance (s : Trader) : (e : TraderStep) → Decidable (AllowsAtMost M u s e)
  | .updatePortfolioSettings _ _ _ => inferInstanceAs (Decidable (_ → _))
  | .openManual _ _ | .closeManual _ _ _ | .reset _ | .advance _ _ | .watch _ _ | .prices _ | .tickNext _ | .closed
  | .pick | .pickForUser _ | .since _ | .readOpenAddrs | .readRecentClosed | .pickNext | .picked => isTrue trivial

structure Capacity (s : Trader) : Prop where
  awaited : Awaited s
  settings : (s.settingsOf u).maxConcurrent ≤ M
  rows : ∀ row ∈ s.picker.rows, row.userId = u → row.settings.maxConcurrent ≤ M
  room : (pickedCount s.desk.book u : ℤ) + s.picker.left s.desk.calls u ≤ M

variable {M u}

theorem left_nonneg (calls : List AutoCall) (picker : Picker) : 0 ≤ picker.left calls u := by
  have hclip : ∀ (p : Prop) [Decidable p] (n : ℤ), 0 ≤ if p then max 0 n else 0 := by
    intro p _ n
    by_cases hp : p
    · rw [if_pos hp]
      exact le_max_left _ _
    · rw [if_neg hp]
  cases picker with
  | idle => exact le_refl _
  | users todo => exact le_refl _
  | _ => exact hclip _ _

theorem pickedCount_keep (b : AutoBook) (keeps : AutoPosition → Bool) :
    (b.positions.keep keeps).rows.countP (fun p => p.userId = u ∧ p.source = "auto_picker") ≤ pickedCount b u :=
  List.filter_sublist.countP_le

theorem pickedCount_insert {t t' : PositionTable} {input : OpenAutoPositionInput} {portfolio : AutoPortfolio} {now : ℤ}
    (h : t.insert input portfolio now = some t') :
    t'.rows.countP (fun p => p.userId = u ∧ p.source = "auto_picker") =
      t.rows.countP (fun p => p.userId = u ∧ p.source = "auto_picker") +
        if input.userId = u ∧ input.source.getD "auto_picker" = "auto_picker" then 1 else 0 := by
  rw [(insert_rows h).1, List.countP_cons]
  simp [newPosition]

/-- The row that has been inserted is found. -/
theorem findToken_insert {t t' : PositionTable} {input : OpenAutoPositionInput} {portfolio : AutoPortfolio} {now : ℤ}
    (h : t.insert input portfolio now = some t') : (t'.findToken input.userId input.tokenAddress).isSome = true := by
  rw [PositionTable.findToken, (insert_rows h).1, List.find?_cons_of_pos (by simp [newPosition])]
  rfl

theorem Advanced.gave {b b' : AutoBook} {now : ℤ} {call next : AutoCall} (h : Advanced b now call b' next) :
    call.gave = false := by
  cases h with
  | _ => rfl

theorem left_of_gave {calls : List AutoCall} {i : ℕ} {pass : Pass} {todo : List PickerRow} {c : AutoCall}
    (hu : pass.row.userId = u) (hc : calls[i]? = some c) :
    (Picker.opening i pass todo).left calls u = max 0 (pass.slots - pass.picked - if c.gave then 1 else 0) := by
  simp [Picker.left, hu, hc]

/-- A step of a call leaves no more than there was. -/
theorem left_advance {calls : List AutoCall} {i : ℕ} {call : AutoCall} (hcall : calls[i]? = some call)
    (hgave : call.gave = false) (next : AutoCall) (picker : Picker) :
    picker.left (calls.set i next) u ≤ picker.left calls u := by
  cases picker with
  | opening j pass todo =>
    by_cases hu : pass.row.userId = u
    · by_cases hj : j = i
      · subst hj
        have hnext : (calls.set j next)[j]? = some next :=
          List.getElem?_set_self (List.getElem?_eq_some_iff.mp hcall).1
        rw [left_of_gave hu hcall, left_of_gave hu hnext, hgave]
        apply max_le_max_left
        rw [if_neg Bool.false_ne_true]
        split <;> omega
      · simp only [Picker.left, List.getElem?_set_ne (Ne.symm hj)]
        exact le_refl _
    · simp only [Picker.left, if_neg hu]
      exact le_refl _
  | _ => exact le_refl _

theorem Awaited.left_call {s : Trader} (h : Awaited s) (call : AutoCall) :
    s.picker.left (s.desk.calls ++ [call]) u = s.picker.left s.desk.calls u := by
  cases hp : s.picker with
  | opening i pass todo =>
    simp only [Picker.left, h.getElem?_call hp call]
  | _ => rfl

namespace Capacity
variable {s s' : Trader}

theorem initial (hM : 10 ≤ M) : Capacity M u {} where
  awaited := .initial
  settings := hM
  rows row hrow := absurd hrow List.not_mem_nil
  room := by
    change ((0 : ℕ) : ℤ) + 0 ≤ M
    omega

/-- A step that opens no position and leaves no more room. -/
theorem moved (h : Capacity M u s) (hawaited : Awaited s') (hsettings : s'.settings = s.settings)
    (hrows : ∀ row ∈ s'.picker.rows, row.userId = u → row.settings.maxConcurrent ≤ M)
    (hcount : pickedCount s'.desk.book u ≤ pickedCount s.desk.book u)
    (hleft : s'.picker.left s'.desk.calls u ≤ s.picker.left s.desk.calls u) : Capacity M u s' where
  awaited := hawaited
  settings := by
    unfold Trader.settingsOf
    rw [hsettings]
    exact h.settings
  rows := hrows
  room := by
    have hroom := h.room
    omega

/-- What the picker opens is taken off what it may open; what is opened by hand does not count. -/
theorem opened (h : Capacity M u s) {i : ℕ} {now : ℤ} {input : OpenAutoPositionInput} {portfolio : AutoPortfolio}
    {book : AutoBook} (hcall : s.desk.calls[i]? = some (.openTx input portfolio))
    (hopen : s.desk.book.openTx input portfolio now = .ok book) (hpicker : s'.picker = s.picker)
    (hdesk : s'.desk =
      ⟨book, s.desk.calls.set i (.opened (book.positions.findToken input.userId input.tokenAddress))⟩) :
    (pickedCount s'.desk.book u : ℤ) + s'.picker.left s'.desk.calls u ≤ M := by
  obtain ⟨positions, fresh, hinsert, -, hbook⟩ := openTx_ok hopen
  have hpositions : book.positions = positions := by rw [hbook]
  have hcount : pickedCount s'.desk.book u = pickedCount s.desk.book u +
      if input.userId = u ∧ input.source.getD "auto_picker" = "auto_picker" then 1 else 0 := by
    rw [hdesk, pickedCount, pickedCount, hpositions, pickedCount_insert hinsert]
  have hcalls : s'.desk.calls = s.desk.calls.set i (.opened (positions.findToken input.userId input.tokenAddress)) := by
    rw [hdesk, hpositions]
  have hroom := h.room
  have hleft : s.picker.left s'.desk.calls u ≤ s.picker.left s.desk.calls u := by
    rw [hcalls]
    exact left_advance hcall rfl _ s.picker
  rw [hcount, hpicker]
  obtain hmanual | ⟨pass, todo, hp⟩ := h.awaited.calls i _ input hcall rfl
  · have hnot : ¬ (input.userId = u ∧ input.source.getD "auto_picker" = "auto_picker") := by simp [hmanual]
    rw [if_neg hnot]
    omega
  · obtain ⟨hslots, t, c, -, -, -, hc, hinput⟩ := h.awaited.waits i pass todo hp
    rw [hcall] at hc
    obtain rfl := Option.some.inj hc
    have hrow : input.userId = pass.row.userId := by rw [hinput input rfl]; rfl
    by_cases hu : pass.row.userId = u
    · obtain ⟨p, hfound⟩ := Option.isSome_iff_exists.mp (findToken_insert hinsert)
      have hopened : s'.desk.calls[i]? = some (.opened (some p)) := by
        rw [hcalls, hfound]
        exact List.getElem?_set_self (List.getElem?_eq_some_iff.mp hcall).1
      have hbefore : s.picker.left s.desk.calls u = max 0 (pass.slots - pass.picked - 0) := by
        rw [hp]
        exact left_of_gave hu hcall
      have hafter : s.picker.left s'.desk.calls u = max 0 (pass.slots - pass.picked - 1) := by
        rw [hp]
        exact left_of_gave hu hopened
      rw [hafter]
      rw [hbefore] at hroom
      split <;> omega
    · have hnot : ¬ (input.userId = u ∧ input.source.getD "auto_picker" = "auto_picker") :=
        fun hboth => hu (hrow.symm.trans hboth.1)
      rw [if_neg hnot]
      omega

theorem advance (h : Capacity M u s) {i : ℕ} {now : ℤ} {call next : AutoCall} {book : AutoBook}
    (hcall : s.desk.calls[i]? = some call) (hstep : Advanced s.desk.book now call book next) :
    Capacity M u
      { s with desk := ⟨book, s.desk.calls.set i next⟩, closings := s.closingsAfter i now, clock := now } := by
  have hawaited : Awaited
      { s with desk := ⟨book, s.desk.calls.set i next⟩, closings := s.closingsAfter i now, clock := now } :=
    h.awaited.advance hcall hstep
  have hsame : book.positions = s.desk.book.positions → Capacity M u
      { s with desk := ⟨book, s.desk.calls.set i next⟩, closings := s.closingsAfter i now, clock := now } :=
    fun heq => h.moved hawaited rfl h.rows (by rw [pickedCount, heq]; exact le_refl _)
      (left_advance hcall hstep.gave next s.picker)
  have hfewer : (∃ keeps, book.positions = s.desk.book.positions.keep keeps) → Capacity M u
      { s with desk := ⟨book, s.desk.calls.set i next⟩, closings := s.closingsAfter i now, clock := now } := by
    rintro ⟨keeps, heq⟩
    refine h.moved hawaited rfl h.rows ?_ (left_advance hcall hstep.gave next s.picker)
    rw [pickedCount, heq]
    exact pickedCount_keep _ keeps
  cases hstep with
  | created input portfolio book hcreate => exact hsame (createPortfolio_positions hcreate)
  | opened input portfolio book hopen => exact ⟨hawaited, h.settings, h.rows, h.opened hcall hopen rfl rfl⟩
  | closed position trade book hclose =>
    obtain ⟨portfolio, -, -, rfl⟩ := closeTx_ok hclose
    exact hfewer ⟨_, rfl⟩
  | cleared userId => exact hfewer ⟨_, rfl⟩
  | _ => exact hsame rfl

theorem settings_step (h : Capacity M u s) {userId : String} {patch : SettingsPatch} {now : ℤ}
    (hguard : AllowsAtMost M u s (.updatePortfolioSettings userId patch now)) :
    Capacity M u { s.updatePortfolioSettings userId patch now with clock := now } := by
  refine ⟨⟨h.awaited.calls, h.awaited.waits⟩, ?_, h.rows, h.room⟩
  change ((s.updatePortfolioSettings userId patch now).settingsOf u).maxConcurrent ≤ M
  rw [settingsOf_update s userId patch now u]
  by_cases hu : u = userId
  · subst hu
    rw [if_pos rfl]
    change (patch.maxConcurrent.map fun n => max 1 (min 100 n)).getD (s.settingsOf u).maxConcurrent ≤ M
    cases hn : patch.maxConcurrent with
    | none => exact h.settings
    | some n => exact hguard rfl n hn
  · rw [if_neg hu]
    exact h.settings

/-- A step of the picker that opens nothing. -/
theorem goes (h : Capacity M u s) {picker : Picker} {clock : ℤ} (hawaited : Awaited { s with picker, clock })
    (hrows : ∀ row ∈ picker.rows, row.userId = u → row.settings.maxConcurrent ≤ M)
    (hleft : picker.left s.desk.calls u ≤ s.picker.left s.desk.calls u) : Capacity M u { s with picker, clock } :=
  h.moved hawaited rfl hrows (le_refl _) hleft

theorem read_left (calls : List AutoCall) (row : PickerRow) (tokens : List HotToken) (slots readAt : ℤ)
    (openAddrs recentClosed : Option (List String)) (todo : List PickerRow) :
    (Picker.read row tokens slots readAt openAddrs recentClosed todo).left calls u =
      (Picker.counted row tokens slots todo).left calls u := by
  unfold Picker.read
  split
  · simp [Picker.left]
  · rfl

theorem pickedCount_le_openCount (s : Trader) : pickedCount s.desk.book u ≤ s.openCount u := by
  apply List.countP_mono_left
  intro p _ hp
  simpa using (of_decide_eq_true hp).1

theorem step (h : Capacity M u s) {e : TraderStep} (hguard : AllowsAtMost M u s e) (hstep : trader.step s e = some s') :
    Capacity M u s' := by
  have hawaited := h.awaited.step hstep
  have hrows := rows_step (P := fun settings => settings.maxConcurrent ≤ M) h.settings h.rows hstep
  have hcalled : ∀ call, (s.call call).picker.left (s.call call).desk.calls u ≤ s.picker.left s.desk.calls u :=
    fun call => (h.awaited.left_call call).le
  cases stepped hstep with
  | openManual userId dto hsize => exact h.moved hawaited rfl hrows (le_refl _) (hcalled _)
  | closeManual userId id exitPriceUsd p => exact h.moved hawaited rfl hrows (le_refl _) (hcalled _)
  | reset userId => exact h.moved hawaited rfl hrows (le_refl _) (hcalled _)
  | fired now p todo liveByAddr px decision hw hdecide =>
    exact h.moved hawaited rfl hrows (le_refl _) (hcalled _)
  | settings userId patch now => exact h.settings_step hguard
  | advance i now call next book hcall hadvanced => exact h.advance hcall hadvanced
  | pick hp =>
    refine ⟨hawaited, h.settings, hrows, ?_⟩
    have hroom := h.room
    rw [hp] at hroom
    exact hroom
  | pickOver scan hp => exact h.goes hawaited hrows (left_nonneg _ _)
  | passOver scan row todo hp => exact h.goes hawaited hrows (left_nonneg _ _)
  | counted scan row todo slots hp hslots hcount =>
    refine ⟨hawaited, h.settings, hrows, ?_⟩
    change (pickedCount s.desk.book u : ℤ) + (if row.userId = u then max 0 slots else 0) ≤ M
    by_cases hu : row.userId = u
    · have hmax : row.settings.maxConcurrent ≤ M := h.rows row (by rw [hp]; exact List.mem_cons_self) hu
      have hle := pickedCount_le_openCount (u := u) s
      rw [if_pos hu]
      rw [hu] at hcount
      omega
    · have hroom := h.room
      rw [hp] at hroom
      rw [if_neg hu]
      exact hroom
  | since now row tokens slots todo hp =>
    refine h.goes hawaited hrows ?_
    rw [hp]
    exact le_refl _
  | readOpenAddrs row tokens slots readAt recentClosed todo hp =>
    refine h.goes hawaited hrows ?_
    rw [hp, read_left]
    exact le_refl _
  | readRecentClosed row tokens slots readAt openAddrs todo hp =>
    refine h.goes hawaited hrows ?_
    rw [hp, read_left]
    exact le_refl _
  | passEnds pass todo hp => exact h.goes hawaited hrows (left_nonneg _ _)
  | skipped pass todo hp =>
    refine h.goes hawaited hrows ?_
    rw [hp]
    exact le_refl _
  | chosen pass todo t hp hroom ht hwants =>
    refine h.moved hawaited rfl hrows (le_refl _) ?_
    rw [hp]
    by_cases hu : pass.row.userId = u
    · change (Picker.opening s.desk.calls.length { pass with next := pass.next + 1 } todo).left
        (s.desk.calls ++ [startOpen (pickInput pass.row t)]) u ≤ _
      simp only [Picker.left, if_pos hu]
      apply max_le_max_left
      split <;> omega
    · simp only [Picker.left, if_neg hu]
      exact le_refl _
  | picked i pass todo position hp hcall =>
    refine h.goes hawaited hrows ?_
    rw [hp]
    by_cases hu : pass.row.userId = u
    · rw [left_of_gave hu hcall]
      simp only [Picker.left, if_pos hu]
      apply max_le_max_left
      cases position with
      | none => simp [AutoCall.gave]
      | some p => simp [AutoCall.gave, sub_sub]
    · simp only [Picker.left, if_neg hu]
      exact le_refl _
  | unpicked i pass todo hp hcall =>
    refine h.goes hawaited hrows ?_
    rw [hp]
    by_cases hu : pass.row.userId = u
    · rw [left_of_gave hu hcall]
      simp only [Picker.left, if_pos hu]
      apply max_le_max_left
      simp [AutoCall.gave]
    · simp only [Picker.left, if_neg hu]
      exact le_refl _
  | _ => exact h.moved hawaited rfl hrows (le_refl _) (le_refl _)

end Capacity

/-- A user who never allows more than `M` positions never has more than `M` that the picker has opened. -/
theorem picker_capacity (hM : 10 ≤ M) {es : List TraderStep} {s : Trader}
    (hrun : trader.GuardedRun (AllowsAtMost M u) {} es s) :
    ((s.desk.book.positions.rows.countP fun p => p.userId = u ∧ p.source = "auto_picker" : ℕ) : ℤ) ≤ M := by
  have h : Capacity M u s := hrun.invariant (fun _ _ _ h hguard hstep => h.step hguard hstep) (.initial hM)
  have hroom := h.room
  have hleft := left_nonneg (u := u) s.desk.calls s.picker
  unfold pickedCount at hroom
  omega

end Capacity

/-! ## What is at stake -/

section Stakes
variable (S : ℚ) (m : ℤ) (u : String)

/-- The user never allows a position of more than `S` dollars or a token that scores less than `m`. -/
def KeepsStakes (_ : Trader) : TraderStep → Prop
  | .updatePortfolioSettings userId patch _ => userId = u →
      (∀ x ∈ patch.positionSizeUsd, max 10 (min 100000 x) ≤ S) ∧ ∀ n ∈ patch.autoMinScore, m ≤ max 0 (min 100 n)
  | _ => True

instance (s : Trader) : (e : TraderStep) → Decidable (KeepsStakes S m u s e)
  | .updatePortfolioSettings _ _ _ => inferInstanceAs (Decidable (_ → _))
  | .openManual _ _ | .closeManual _ _ _ | .reset _ | .advance _ _ | .watch _ _ | .prices _ | .tickNext _ | .closed
  | .pick | .pickForUser _ | .since _ | .readOpenAddrs | .readRecentClosed | .pickNext | .picked => isTrue trivial

structure Modest (settings : PickerSettings) : Prop where
  size : settings.positionSizeUsd ≤ S
  score : m ≤ settings.autoMinScore

structure Stakes (s : Trader) : Prop where
  settings : Modest S m (s.settingsOf u)
  rows : ∀ row ∈ s.picker.rows, row.userId = u → Modest S m row.settings
  calls : ∀ call ∈ s.desk.calls, ∀ input, call.input? = some input → input.userId = u → input.source ≠ some "manual" →
    input.sizeUsd ≤ S ∧ m ≤ input.scoreAtEntry
  positions : ∀ p ∈ s.desk.book.positions.rows, p.userId = u → p.source = "auto_picker" →
    p.sizeUsd ≤ S ∧ m ≤ p.scoreAtEntry

variable {S m u}

theorem le_num {q : ℚ} {n : ℤ} (hn : 0 ≤ n) (h : (n : ℚ) ≤ q) : n ≤ q.num := by
  have hq : 0 ≤ q := le_trans (by exact_mod_cast hn) h
  have hden : (1 : ℚ) ≤ q.den := by exact_mod_cast q.pos
  have hnum : (0 : ℚ) ≤ q.num := by exact_mod_cast Rat.num_nonneg.mpr hq
  have hle : (n : ℚ) ≤ q.num := by
    calc (n : ℚ) ≤ q := h
      _ = q.num / q.den := (Rat.num_div_den q).symm
      _ ≤ q.num := div_le_self hnum hden
  exact_mod_cast hle

namespace Stakes
variable {s s' : Trader}

theorem initial (hS : 200 ≤ S) (hm : m ≤ 70) : Stakes S m u {} where
  settings := ⟨hS, hm⟩
  rows _ hrow := absurd hrow List.not_mem_nil
  calls _ hcall := absurd hcall List.not_mem_nil
  positions _ hp := absurd hp List.not_mem_nil

/-- A step that changes neither the desk nor the settings. -/
theorem moved (h : Stakes S m u s) (hdesk : s'.desk = s.desk) (hsettings : s'.settings = s.settings)
    (hrows : ∀ row ∈ s'.picker.rows, row.userId = u → Modest S m row.settings) : Stakes S m u s' where
  settings := by
    unfold Trader.settingsOf
    rw [hsettings]
    exact h.settings
  rows := hrows
  calls := by
    rw [hdesk]
    exact h.calls
  positions := by
    rw [hdesk]
    exact h.positions

theorem called (h : Stakes S m u s) {call : AutoCall}
    (hcall : ∀ input, call.input? = some input → input.userId = u → input.source ≠ some "manual" →
      input.sizeUsd ≤ S ∧ m ≤ input.scoreAtEntry) : Stakes S m u (s.call call) where
  settings := h.settings
  rows := h.rows
  calls := List.forall_mem_append.mpr ⟨h.calls, List.forall_mem_singleton.mpr hcall⟩
  positions := h.positions

/-- What is opened by hand has no bound. -/
theorem manual (h : Stakes S m u s) (userId : String) (dto : ManualOpen) :
    Stakes S m u (s.call (startOpen (dto.input userId))) := by
  refine h.called fun input hinput _ hsource => ?_
  obtain hnone | hsome := input?_startOpen (dto.input userId)
  · rw [hnone] at hinput
    cases hinput
  · rw [hsome] at hinput
    obtain rfl := Option.some.inj hinput
    exact absurd rfl hsource

/-- What the picker wants is within the settings of its pass. -/
theorem wanted (h : Stakes S m u s) (hm : 0 ≤ m) {pass : Pass} {todo : List PickerRow} {t : HotToken}
    (hp : s.picker = .picking pass todo) (hwants : pass.wants t = true) (hu : pass.row.userId = u) :
    (pickInput pass.row t).sizeUsd ≤ S ∧ m ≤ (pickInput pass.row t).scoreAtEntry := by
  have hmodest := h.rows pass.row (by rw [hp]; exact List.mem_cons_self) hu
  have hscore : (pass.row.settings.autoMinScore : ℚ) ≤ t.score := by
    simp only [Pass.wants, Bool.and_eq_true, decide_eq_true_eq] at hwants
    exact hwants.1.1.1
  refine ⟨hmodest.size, le_num hm (le_trans ?_ hscore)⟩
  exact_mod_cast hmodest.score

theorem advance (h : Stakes S m u s) {i : ℕ} {now : ℤ} {call next : AutoCall} {book : AutoBook}
    (hcall : s.desk.calls[i]? = some call) (hstep : Advanced s.desk.book now call book next) :
    Stakes S m u
      { s with desk := ⟨book, s.desk.calls.set i next⟩, closings := s.closingsAfter i now, clock := now } := by
  have hmem := List.mem_of_getElem? hcall
  refine ⟨h.settings, h.rows, fun c hc input hinput => ?_, fun p hp hu hsource => ?_⟩
  · obtain hc | rfl := List.mem_or_eq_of_mem_set hc
    · exact h.calls c hc input hinput
    · obtain hnone | hsame := hstep.input?
      · rw [hnone] at hinput
        cases hinput
      · exact h.calls call hmem input (hsame ▸ hinput)
  · change p ∈ book.positions.rows at hp
    cases hstep with
    | created input portfolio book hcreate =>
      rw [createPortfolio_positions hcreate] at hp
      exact h.positions p hp hu hsource
    | opened input portfolio book hopen =>
      obtain ⟨positions, fresh, hinsert, -, rfl⟩ := openTx_ok hopen
      change p ∈ positions.rows at hp
      rw [(insert_rows hinsert).1] at hp
      obtain rfl | hp := List.mem_cons.mp hp
      · refine h.calls _ hmem input rfl hu fun hmanual => ?_
        change input.source.getD "auto_picker" = "auto_picker" at hsource
        simp [hmanual] at hsource
      · exact h.positions p hp hu hsource
    | closed position trade book hclose =>
      obtain ⟨portfolio, -, -, rfl⟩ := closeTx_ok hclose
      exact h.positions p (List.mem_of_mem_filter hp) hu hsource
    | cleared userId => exact h.positions p (List.mem_of_mem_filter hp) hu hsource
    | _ => exact h.positions p hp hu hsource

theorem settings_step (h : Stakes S m u s) {userId : String} {patch : SettingsPatch} {now : ℤ}
    (hguard : KeepsStakes S m u s (.updatePortfolioSettings userId patch now)) :
    Stakes S m u { s.updatePortfolioSettings userId patch now with clock := now } := by
  refine ⟨?_, h.rows, h.calls, h.positions⟩
  change Modest S m ((s.updatePortfolioSettings userId patch now).settingsOf u)
  rw [settingsOf_update s userId patch now u]
  by_cases hu : u = userId
  · subst hu
    obtain ⟨hsize, hscore⟩ := hguard rfl
    rw [if_pos rfl]
    constructor
    · change (patch.positionSizeUsd.map fun x => max 10 (min 100000 x)).getD (s.settingsOf u).positionSizeUsd ≤ S
      cases hx : patch.positionSizeUsd with
      | none => exact h.settings.size
      | some x => exact hsize x hx
    · change m ≤ (patch.autoMinScore.map fun n => max 0 (min 100 n)).getD (s.settingsOf u).autoMinScore
      cases hn : patch.autoMinScore with
      | none => exact h.settings.score
      | some n => exact hscore n hn
  · rw [if_neg hu]
    exact h.settings

theorem step (hm : 0 ≤ m) (h : Stakes S m u s) {e : TraderStep} (hguard : KeepsStakes S m u s e)
    (hstep : trader.step s e = some s') : Stakes S m u s' := by
  have hrows := rows_step h.settings h.rows hstep
  cases stepped hstep with
  | openManual userId dto hsize => exact h.manual userId dto
  | closeManual userId id exitPriceUsd p => exact h.called fun input hinput => by cases hinput
  | reset userId => exact h.called fun input hinput => by cases hinput
  | settings userId patch now => exact h.settings_step hguard
  | advance i now call next book hcall hadvanced => exact h.advance hcall hadvanced
  | fired now p todo liveByAddr px decision hw hdecide =>
    have hcalled : Stakes S m u (s.call (.findPosition p.id decision)) := h.called fun input hinput => by cases hinput
    exact hcalled.moved rfl rfl hrows
  | chosen pass todo t hp hroom ht hwants =>
    have hcalled : Stakes S m u (s.call (startOpen (pickInput pass.row t))) := by
      refine h.called fun input hinput hu _ => ?_
      obtain hnone | hsome := input?_startOpen (pickInput pass.row t)
      · rw [hnone] at hinput
        cases hinput
      · rw [hsome] at hinput
        obtain rfl := Option.some.inj hinput
        exact h.wanted hm hp hwants hu
    exact hcalled.moved rfl rfl hrows
  | _ => exact h.moved rfl rfl hrows

end Stakes

/-- What the picker has at stake for a user is at most the user's number of positions times their size, and all of it in
tokens that scored enough when they were opened. -/
theorem picker_exposure {M : ℤ} (hM : 10 ≤ M) (hS : 200 ≤ S) (hm : 0 ≤ m ∧ m ≤ 70) {es : List TraderStep} {s : Trader}
    (hrun : trader.GuardedRun (fun s e => AllowsAtMost M u s e ∧ KeepsStakes S m u s e) {} es s) :
    ((s.desk.book.positions.rows.filter fun p => p.userId = u ∧ p.source = "auto_picker").map
      AutoPosition.sizeUsd).sum ≤ M * S ∧
    ∀ p ∈ s.desk.book.positions.rows, p.userId = u → p.source = "auto_picker" → m ≤ p.scoreAtEntry := by
  have hcapacity : Capacity M u s :=
    hrun.invariant (fun _ _ _ h hguard hstep => h.step hguard.1 hstep) (.initial hM)
  have hstakes : Stakes S m u s :=
    hrun.invariant (fun _ _ _ h hguard hstep => h.step hm.1 hguard.2 hstep) (.initial hS hm.2)
  refine ⟨?_, fun p hp hu hsource => (hstakes.positions p hp hu hsource).2⟩
  have hroom := hcapacity.room
  have hleft := left_nonneg (u := u) s.desk.calls s.picker
  have hcount : (pickedCount s.desk.book u : ℚ) ≤ M := by
    have hle : (pickedCount s.desk.book u : ℤ) ≤ M := by omega
    exact_mod_cast hle
  have hsize : ∀ x ∈ (s.desk.book.positions.rows.filter fun p => p.userId = u ∧ p.source = "auto_picker").map
      AutoPosition.sizeUsd, x ≤ S := by
    intro x hx
    obtain ⟨p, hp, rfl⟩ := List.mem_map.mp hx
    obtain ⟨hmem, hmine⟩ := List.mem_filter.mp hp
    obtain ⟨hu, hsource⟩ := of_decide_eq_true hmine
    exact (hstakes.positions p hmem hu hsource).1
  have hlength : ((s.desk.book.positions.rows.filter fun p => p.userId = u ∧ p.source = "auto_picker").map
      AutoPosition.sizeUsd).length = pickedCount s.desk.book u := by
    rw [List.length_map, pickedCount, List.countP_eq_length_filter]
  calc ((s.desk.book.positions.rows.filter fun p => p.userId = u ∧ p.source = "auto_picker").map
        AutoPosition.sizeUsd).sum
      ≤ pickedCount s.desk.book u • S := by
        rw [← hlength]
        exact List.sum_le_card_nsmul _ S hsize
    _ = pickedCount s.desk.book u * S := nsmul_eq_mul _ _
    _ ≤ M * S := mul_le_mul_of_nonneg_right hcount (by linarith)

end Stakes

/-! ## The cooldown -/

/-- The pass has asked for what it is to skip, and is not over. -/
def Picker.inPass (userId : String) : Picker → Bool
  | .reading row _ _ _ _ _ _ => row.userId = userId
  | .picking pass _ | .opening _ pass _ => pass.row.userId = userId
  | .idle | .users _ | .counted _ _ _ _ => false

/-- The closed trades have been answered, and the open positions not yet. -/
def Picker.halfRead (userId : String) : Picker → Bool
  | .reading row _ _ _ none (some _) _ => row.userId = userId
  | _ => false

/-- The tokens that a pass skips, and those of which it has had its turn. -/
def Pass.noted (pass : Pass) (n : ℕ) : List String := pass.skip ++ (pass.tokens.take n).map HotToken.address

/-- The call may still open its position. -/
def AutoCall.pending (call : AutoCall) : Bool := call.input?.isSome

section Cooldown
variable (C : ℤ) (u : String)

/-- Nothing is opened by hand in a pass of the user, and nothing is closed while the pass has half of its answers. -/
def CallUnraced (picker : Picker) : AutoCall → Prop
  | .openTx input _ => input.userId = u → picker.inPass u = true → input.source ≠ some "manual"
  | .closeTx _ trade => trade.userId = u → picker.halfRead u = false
  | _ => True

/-- The clock does not go back, a scan names a token once, and the user's cooldown is never under `C` minutes. -/
def Unraced (s : Trader) : TraderStep → Prop
  | .advance i now => s.clock ≤ now ∧ ∀ call ∈ s.desk.calls[i]?, CallUnraced u s.picker call
  | .updatePortfolioSettings userId patch now =>
    s.clock ≤ now ∧ (userId = u → ∀ n ∈ patch.cooldownMinutes, C ≤ max 0 (min 1440 n))
  | .pickForUser scan => ((scan.getD []).map HotToken.address).Nodup
  | .watch _ now | .tickNext now | .since now => s.clock ≤ now
  | _ => True

instance (picker : Picker) : (call : AutoCall) → Decidable (CallUnraced u picker call)
  | .openTx _ _ | .closeTx _ _ => inferInstanceAs (Decidable (_ → _))
  | .findPortfolio _ | .createPortfolio _ | .findExisting _ | .findPosition _ _ | .resetTx _ | .resetPortfolio _
  | .opened _ | .finished | .failed => isTrue trivial

instance (s : Trader) : (e : TraderStep) → Decidable (Unraced C u s e)
  | .advance _ _ | .updatePortfolioSettings _ _ _ => inferInstanceAs (Decidable (_ ∧ _))
  | .pickForUser scan => inferInstanceAs (Decidable ((scan.getD []).map HotToken.address).Nodup)
  | .watch _ now | .tickNext now | .since now => inferInstanceAs (Decidable (s.clock ≤ now))
  | .openManual _ _ | .closeManual _ _ _ | .reset _ | .prices _ | .closed | .pick | .readOpenAddrs | .readRecentClosed
  | .pickNext | .picked => isTrue trivial

/-- All positions of the user are of noted tokens, and so are the trades closed since `cut`. -/
structure Seen (rows : List AutoPosition) (closings : List Closing) (cut : ℤ) (noted : List String) : Prop where
  open_ : ∀ p ∈ rows, p.userId = u → p.tokenAddress ∈ noted
  closed : ∀ c ∈ closings, c.userId = u → cut < c.closedAt → c.tokenAddress ∈ noted

/-- The window of the cooldown, from when it was asked for. -/
def cutOf (row : PickerRow) (readAt : ℤ) : ℤ := readAt - row.settings.cooldownMinutes * 60000

/-- What a pass knows of the user's positions and closed trades. -/
def Noted (rows : List AutoPosition) (closings : List Closing) (calls : List AutoCall) (clock : ℤ) : Picker → Prop
  | .idle | .users _ => True
  | .counted row tokens _ _ => row.userId = u → (tokens.map HotToken.address).Nodup
  | .reading row tokens _ readAt openAddrs recentClosed _ => row.userId = u →
      (tokens.map HotToken.address).Nodup ∧ readAt ≤ clock ∧
      (∀ skip ∈ openAddrs, ∀ p ∈ rows, p.userId = u → p.tokenAddress ∈ skip) ∧
      (openAddrs = none → ∀ skip ∈ recentClosed, ∀ c ∈ closings, c.userId = u → cutOf row readAt < c.closedAt →
        c.tokenAddress ∈ skip)
  | .picking pass _ => pass.row.userId = u →
      (pass.tokens.map HotToken.address).Nodup ∧ pass.readAt ≤ clock ∧
      Seen u rows closings (cutOf pass.row pass.readAt) (pass.noted pass.next)
  | .opening i pass _ => pass.row.userId = u →
      (pass.tokens.map HotToken.address).Nodup ∧ pass.readAt ≤ clock ∧
      Seen u rows closings (cutOf pass.row pass.readAt)
        (pass.noted (if (calls[i]?).any AutoCall.pending then pass.next - 1 else pass.next))

/-- A position of the picker comes `C` minutes after what was closed of its token. -/
def Gap (rows : List AutoPosition) (closings : List Closing) : Prop :=
  ∀ p ∈ rows, p.userId = u → p.source = "auto_picker" → ∀ c ∈ closings, c.userId = u →
    c.tokenAddress = p.tokenAddress → c.closedAt + C * 60000 ≤ p.openedAt

structure Cooled (s : Trader) : Prop where
  awaited : Awaited s
  reads : ∀ call ∈ s.desk.calls, ReadsRow s.desk.book.positions call
  settings : C ≤ (s.settingsOf u).cooldownMinutes
  rows : ∀ row ∈ s.picker.rows, row.userId = u → C ≤ row.settings.cooldownMinutes
  gap : Gap C u s.desk.book.positions.rows s.closings
  noted : Noted u s.desk.book.positions.rows s.closings s.desk.calls s.clock s.picker

variable {C u}

/-! ### What a pass knows -/

theorem Pass.noted_subset (pass : Pass) {m n : ℕ} (h : m ≤ n) : pass.noted m ⊆ pass.noted n := by
  intro token htoken
  obtain hskip | htake := List.mem_append.mp htoken
  · exact List.mem_append_left _ hskip
  · obtain ⟨t, ht, rfl⟩ := List.mem_map.mp htake
    exact List.mem_append_right _ (List.mem_map_of_mem ((List.take_sublist_take_left h).subset ht))

section Knows
variable {rows rows' : List AutoPosition} {closings closings' : List Closing} {cut : ℤ} {noted noted' : List String}
  {calls calls' : List AutoCall} {clock clock' : ℤ} {picker : Picker}

theorem Seen.mono (h : Seen u rows closings cut noted) (hrows : rows' ⊆ rows) (hclosings : closings' ⊆ closings)
    (hnoted : noted ⊆ noted') : Seen u rows' closings' cut noted' where
  open_ p hp hu := hnoted (h.open_ p (hrows hp) hu)
  closed c hc hu hcut := hnoted (h.closed c (hclosings hc) hu hcut)

theorem Noted.mono (h : Noted u rows closings calls clock picker) (hrows : rows' ⊆ rows)
    (hclosings : closings' ⊆ closings) (hclock : clock ≤ clock')
    (hcalls : ∀ i pass todo, picker = .opening i pass todo → (calls'[i]?).any AutoCall.pending = true →
      (calls[i]?).any AutoCall.pending = true) : Noted u rows' closings' calls' clock' picker := by
  cases picker with
  | idle => trivial
  | users todo => trivial
  | counted row tokens slots todo => exact h
  | reading row tokens slots readAt openAddrs recentClosed todo =>
    intro hu
    obtain ⟨hnodup, hread, hopen, hclosed⟩ := h hu
    exact ⟨hnodup, hread.trans hclock, fun skip hskip p hp => hopen skip hskip p (hrows hp),
      fun hnone skip hskip c hc => hclosed hnone skip hskip c (hclosings hc)⟩
  | picking pass todo =>
    intro hu
    obtain ⟨hnodup, hread, hseen⟩ := h hu
    exact ⟨hnodup, hread.trans hclock, hseen.mono hrows hclosings fun _ htoken => htoken⟩
  | opening i pass todo =>
    intro hu
    obtain ⟨hnodup, hread, hseen⟩ := h hu
    refine ⟨hnodup, hread.trans hclock, hseen.mono hrows hclosings (pass.noted_subset ?_)⟩
    by_cases hpending : (calls'[i]?).any AutoCall.pending = true
    · rw [if_pos hpending, if_pos (hcalls i pass todo rfl hpending)]
    · rw [if_neg hpending]
      split <;> omega

theorem Seen.close (h : Seen u rows closings cut noted) {c : Closing}
    (hc : c.userId = u → ∃ p ∈ rows, p.userId = u ∧ p.tokenAddress = c.tokenAddress) :
    Seen u rows (closings ++ [c]) cut noted where
  open_ := h.open_
  closed c' hc' hu hcut := by
    obtain hold | hnew := List.mem_append.mp hc'
    · exact h.closed c' hold hu hcut
    · obtain rfl := List.mem_singleton.mp hnew
      obtain ⟨p, hp, hpu, htoken⟩ := hc hu
      exact htoken ▸ h.open_ p hp hpu

/-- What is closed has been open, and a pass that has asked for the open positions knows it. -/
theorem Noted.close (h : Noted u rows closings calls clock picker) {c : Closing}
    (hc : c.userId = u → ∃ p ∈ rows, p.userId = u ∧ p.tokenAddress = c.tokenAddress)
    (hhalf : c.userId = u → picker.halfRead u = false) : Noted u rows (closings ++ [c]) calls clock picker := by
  cases picker with
  | idle => trivial
  | users todo => trivial
  | counted row tokens slots todo => exact h
  | reading row tokens slots readAt openAddrs recentClosed todo =>
    intro hu
    obtain ⟨hnodup, hread, hopen, hclosed⟩ := h hu
    refine ⟨hnodup, hread, hopen, fun hnone skip hskip c' hc' hc'u hcut => ?_⟩
    obtain hold | hnew := List.mem_append.mp hc'
    · exact hclosed hnone skip hskip c' hold hc'u hcut
    · obtain rfl := List.mem_singleton.mp hnew
      have hfull := hhalf hc'u
      rw [hnone, Option.mem_def.mp hskip] at hfull
      simp [Picker.halfRead, hu] at hfull
  | picking pass todo =>
    intro hu
    obtain ⟨hnodup, hread, hseen⟩ := h hu
    exact ⟨hnodup, hread, hseen.close hc⟩
  | opening i pass todo =>
    intro hu
    obtain ⟨hnodup, hread, hseen⟩ := h hu
    exact ⟨hnodup, hread, hseen.close hc⟩

theorem Seen.insert (h : Seen u rows closings cut noted) {p : AutoPosition}
    (hp : p.userId = u → p.tokenAddress ∈ noted) : Seen u (p :: rows) closings cut noted where
  open_ := List.forall_mem_cons.mpr ⟨hp, h.open_⟩
  closed := h.closed

/-- A position of somebody else, or outside a pass. -/
theorem Noted.insert (h : Noted u rows closings calls clock picker) {p : AutoPosition}
    (hp : p.userId = u → picker.inPass u = false) : Noted u (p :: rows) closings calls clock picker := by
  have hother : picker.inPass u = true → p.userId ≠ u := by
    intro hpass hpu
    rw [hp hpu] at hpass
    cases hpass
  cases picker with
  | idle => trivial
  | users todo => trivial
  | counted row tokens slots todo => exact h
  | reading row tokens slots readAt openAddrs recentClosed todo =>
    intro hu
    obtain ⟨hnodup, hread, hopen, hclosed⟩ := h hu
    refine ⟨hnodup, hread, fun skip hskip => List.forall_mem_cons.mpr ⟨fun hpu => ?_, hopen skip hskip⟩, hclosed⟩
    exact absurd hpu (hother (by simp [Picker.inPass, hu]))
  | picking pass todo =>
    intro hu
    obtain ⟨hnodup, hread, hseen⟩ := h hu
    exact ⟨hnodup, hread, hseen.insert fun hpu => absurd hpu (hother (by simp [Picker.inPass, hu]))⟩
  | opening i pass todo =>
    intro hu
    obtain ⟨hnodup, hread, hseen⟩ := h hu
    exact ⟨hnodup, hread, hseen.insert fun hpu => absurd hpu (hother (by simp [Picker.inPass, hu]))⟩

end Knows

/-- A token that the pass wants is none of those before it. -/
theorem not_noted {pass : Pass} {t : HotToken} (hnodup : (pass.tokens.map HotToken.address).Nodup)
    (ht : pass.tokens[pass.next - 1]? = some t) (hwants : pass.wants t = true) :
    t.address ∉ pass.noted (pass.next - 1) := by
  intro hmem
  obtain hskip | htake := List.mem_append.mp hmem
  · simp [Pass.wants, hskip] at hwants
  · obtain ⟨hlt, rfl⟩ := List.getElem?_eq_some_iff.mp ht
    obtain ⟨t', ht', heq⟩ := List.mem_map.mp htake
    obtain ⟨k, hk, rfl⟩ := List.mem_take_iff_getElem.mp ht'
    have hne := List.nodup_iff_getElem?_ne_getElem?.mp hnodup k (pass.next - 1) (by omega) (by simpa using hlt)
    apply hne
    have hkl : k < pass.tokens.length := by omega
    simpa [hkl, hlt] using heq

theorem Gap.subset {rows rows' : List AutoPosition} {closings closings' : List Closing} (h : Gap C u rows closings)
    (hrows : rows' ⊆ rows) (hclosings : closings' ⊆ closings) : Gap C u rows' closings' :=
  fun p hp hu hsource c hc => h p (hrows hp) hu hsource c (hclosings hc)

/-! ### The steps of a call -/

theorem reads_advance {b b' : AutoBook} {now : ℤ} {call next : AutoCall} {calls : List AutoCall}
    (h : ∀ c ∈ calls, ReadsRow b.positions c) (hstep : Advanced b now call b' next) (i : ℕ) :
    ∀ c ∈ calls.set i next, ReadsRow b'.positions c := by
  cases hstep with
  | portfolio input portfolio => exact forall_mem_set h (Booked.guardBalance_spec input portfolio _).2 i
  | created input portfolio b' hcreate =>
    rw [createPortfolio_positions hcreate]
    exact forall_mem_set h (Booked.guardBalance_spec input portfolio _).2 i
  | opened input portfolio b' hopen =>
    obtain ⟨positions, fresh, hinsert, -, rfl⟩ := openTx_ok hopen
    exact forall_mem_set (fun c hc => (h c hc).insert hinsert) (by trivial) i
  | position id decision position hfind => exact forall_mem_set h (Booked.reads_find hfind decision now) i
  | closed position trade b' hclose =>
    obtain ⟨portfolio, -, -, rfl⟩ := closeTx_ok hclose
    refine forall_mem_set (fun c hc => ?_) (by trivial) i
    exact (h c hc).keep _
  | cleared userId =>
    refine forall_mem_set (fun c hc => ?_) (by trivial) i
    exact (h c hc).keep _
  | _ => exact forall_mem_set h (by trivial) i

theorem pending_set {b b' : AutoBook} {now : ℤ} {call next : AutoCall} {calls : List AutoCall} {i : ℕ}
    (hcall : calls[i]? = some call) (hstep : Advanced b now call b' next) (j : ℕ)
    (h : ((calls.set i next)[j]?).any AutoCall.pending = true) : (calls[j]?).any AutoCall.pending = true := by
  by_cases hj : j = i
  · subst hj
    rw [List.getElem?_set_self (List.getElem?_eq_some_iff.mp hcall).1] at h
    rw [hcall]
    change next.input?.isSome = true at h
    change call.input?.isSome = true
    obtain hnone | hsame := hstep.input?
    · rw [hnone] at h
      cases h
    · exact hsame ▸ h
  · rwa [List.getElem?_set_ne (Ne.symm hj)] at h

namespace Cooled
variable {s s' : Trader}

theorem initial (hC : C ≤ 15) : Cooled C u {} where
  awaited := .initial
  reads _ hcall := absurd hcall List.not_mem_nil
  settings := hC
  rows _ hrow := absurd hrow List.not_mem_nil
  gap _ hp := absurd hp List.not_mem_nil
  noted := trivial

/-- What the picker is about to open is not noted before its turn, and is noted after it. -/
theorem turn (h : Cooled C u s) {i : ℕ} {input : OpenAutoPositionInput} {portfolio : AutoPortfolio}
    (hcall : s.desk.calls[i]? = some (.openTx input portfolio)) (hsource : input.source ≠ some "manual")
    (hu : input.userId = u) : ∃ pass todo, s.picker = .opening i pass todo ∧ C ≤ pass.row.settings.cooldownMinutes ∧
      (pass.tokens.map HotToken.address).Nodup ∧ pass.readAt ≤ s.clock ∧
      Seen u s.desk.book.positions.rows s.closings (cutOf pass.row pass.readAt) (pass.noted (pass.next - 1)) ∧
      input.tokenAddress ∉ pass.noted (pass.next - 1) ∧ input.tokenAddress ∈ pass.noted pass.next := by
  obtain hmanual | ⟨pass, todo, hp⟩ := h.awaited.calls i _ input hcall rfl
  · exact absurd hmanual hsource
  obtain ⟨-, t, c, ht, hnext, hwants, hc, hinput⟩ := h.awaited.waits i pass todo hp
  rw [hcall] at hc
  obtain rfl := Option.some.inj hc
  have heq := hinput input rfl
  have hrow : pass.row.userId = u := by
    rw [← hu, heq]
    rfl
  have htoken : input.tokenAddress = t.address := by
    rw [heq]
    rfl
  have hcooldown := h.rows pass.row (by rw [hp]; exact List.mem_cons_self) hrow
  have hnoted := h.noted
  rw [hp] at hnoted
  obtain ⟨hnodup, hread, hseen⟩ := hnoted hrow
  have hpending : (s.desk.calls[i]?).any AutoCall.pending = true := by
    rw [hcall]
    rfl
  rw [if_pos hpending] at hseen
  refine ⟨pass, todo, hp, hcooldown, hnodup, hread, hseen, ?_, ?_⟩
  · rw [htoken]
    exact not_noted hnodup ht hwants
  · rw [htoken]
    obtain ⟨hlt, rfl⟩ := List.getElem?_eq_some_iff.mp ht
    exact List.mem_append_right _
      (List.mem_map_of_mem (List.mem_take_iff_getElem.mpr ⟨pass.next - 1, by omega, rfl⟩))

/-- A new position comes late enough after what was closed of its token. -/
theorem opened_gap (h : Cooled C u s) {i : ℕ} {now : ℤ} {input : OpenAutoPositionInput} {portfolio : AutoPortfolio}
    (hcall : s.desk.calls[i]? = some (.openTx input portfolio)) (hclock : s.clock ≤ now) (id : ℕ) :
    Gap C u (newPosition input portfolio id now :: s.desk.book.positions.rows) s.closings := by
  intro p hp hu hsource c hc hcu htoken
  obtain rfl | hp := List.mem_cons.mp hp
  swap
  · exact h.gap p hp hu hsource c hc hcu htoken
  have hnot : input.source ≠ some "manual" := by
    intro hmanual
    change input.source.getD "auto_picker" = "auto_picker" at hsource
    simp [hmanual] at hsource
  obtain ⟨pass, todo, -, hcooldown, -, hread, hseen, hunseen, -⟩ := h.turn hcall hnot hu
  have hcut : c.closedAt ≤ cutOf pass.row pass.readAt := by
    by_contra hlate
    apply hunseen
    have htoken' : c.tokenAddress = input.tokenAddress := htoken
    rw [← htoken']
    exact hseen.closed c hc hcu (not_le.mp hlate)
  change c.closedAt + C * 60000 ≤ now
  unfold cutOf at hcut
  omega

theorem opened_noted (h : Cooled C u s) {i : ℕ} {now : ℤ} {input : OpenAutoPositionInput} {portfolio : AutoPortfolio}
    {next : AutoCall} (hcall : s.desk.calls[i]? = some (.openTx input portfolio)) (hnext : next.input? = none)
    (hguard : CallUnraced u s.picker (.openTx input portfolio)) (hclock : s.clock ≤ now) (id : ℕ) :
    Noted u (newPosition input portfolio id now :: s.desk.book.positions.rows) s.closings (s.desk.calls.set i next) now
      s.picker := by
  have hkept : ∀ j : ℕ, ((s.desk.calls.set i next)[j]?).any AutoCall.pending = true →
      (s.desk.calls[j]?).any AutoCall.pending = true := by
    intro j hj
    by_cases hji : j = i
    · subst hji
      rw [hcall]
      rfl
    · rwa [List.getElem?_set_ne (Ne.symm hji)] at hj
  have hother : (input.userId = u → s.picker.inPass u = false) → Noted u
      (newPosition input portfolio id now :: s.desk.book.positions.rows) s.closings (s.desk.calls.set i next) now
        s.picker := by
    intro hpass
    exact (h.noted.insert (p := newPosition input portfolio id now) hpass).mono (fun _ hp => hp) (fun _ hc => hc) hclock
      fun j _ _ _ => hkept j
  by_cases hmanual : input.source = some "manual"
  · apply hother
    intro hu
    cases hpass : s.picker.inPass u with
    | false => rfl
    | true => exact absurd hmanual (hguard hu hpass)
  by_cases hu : input.userId = u
  · obtain ⟨pass, todo, hp, -, hnodup, hread, hseen, -, hmem⟩ := h.turn hcall hmanual hu
    rw [hp]
    intro hrow
    refine ⟨hnodup, hread.trans hclock, ?_⟩
    have hdone : ((s.desk.calls.set i next)[i]?).any AutoCall.pending = false := by
      rw [List.getElem?_set_self (List.getElem?_eq_some_iff.mp hcall).1]
      simp [AutoCall.pending, hnext]
    rw [hdone, if_neg Bool.false_ne_true]
    exact (hseen.mono (fun _ hp => hp) (fun _ hc => hc) (pass.noted_subset (Nat.sub_le _ _))).insert fun _ => hmem
  · exact hother fun hsame => absurd hsame hu

theorem advance (h : Cooled C u s) {i : ℕ} {now : ℤ} {call next : AutoCall} {book : AutoBook}
    (hguard : Unraced C u s (.advance i now)) (hcall : s.desk.calls[i]? = some call)
    (hstep : Advanced s.desk.book now call book next) :
    Cooled C u { s with desk := ⟨book, s.desk.calls.set i next⟩, closings := s.closingsAfter i now, clock := now } := by
  have hawaited : Awaited
      { s with desk := ⟨book, s.desk.calls.set i next⟩, closings := s.closingsAfter i now, clock := now } :=
    h.awaited.advance hcall hstep
  have hreads := reads_advance h.reads hstep i
  have hpending := pending_set hcall hstep
  obtain ⟨hclock, hunraced⟩ := hguard
  have hcallguard := hunraced call hcall
  -- rows and closed trades are lost
  have hfewer : book.positions.rows ⊆ s.desk.book.positions.rows → s.closingsAfter i now ⊆ s.closings → Cooled C u
      { s with desk := ⟨book, s.desk.calls.set i next⟩, closings := s.closingsAfter i now, clock := now } :=
    fun hrows hclosings => ⟨hawaited, hreads, h.settings, h.rows, h.gap.subset hrows hclosings,
      h.noted.mono hrows hclosings hclock fun j _ _ _ => hpending j⟩
  have hsame : book.positions = s.desk.book.positions → s.closingsAfter i now = s.closings → Cooled C u
      { s with desk := ⟨book, s.desk.calls.set i next⟩, closings := s.closingsAfter i now, clock := now } :=
    fun hrows hclosings => hfewer (by rw [hrows]; exact fun _ hp => hp) (by rw [hclosings]; exact fun _ hc => hc)
  cases hstep with
  | created input portfolio book hcreate =>
    exact hsame (createPortfolio_positions hcreate) (by simp [Trader.closingsAfter, hcall])
  | opened input portfolio book hopen =>
    obtain ⟨positions, fresh, hinsert, -, rfl⟩ := openTx_ok hopen
    have hrows := (insert_rows hinsert).1
    have hclosings : s.closingsAfter i now = s.closings := by simp [Trader.closingsAfter, hcall]
    refine ⟨hawaited, hreads, h.settings, h.rows, ?_, ?_⟩
    · change Gap C u positions.rows (s.closingsAfter i now)
      rw [hrows, hclosings]
      exact h.opened_gap hcall hclock _
    · change Noted u positions.rows (s.closingsAfter i now) _ _ _
      rw [hrows, hclosings]
      exact h.opened_noted hcall rfl hcallguard hclock _
  | closed position trade book hclose =>
    have hclosings : s.closingsAfter i now = s.closings ++ [⟨trade.userId, trade.tokenAddress, now⟩] := by
      simp [Trader.closingsAfter, hcall, hclose, Except.toOption]
    obtain ⟨portfolio, hfind, -, rfl⟩ := closeTx_ok hclose
    obtain ⟨q, hq⟩ := Option.isSome_iff_exists.mp hfind
    have hmem := List.mem_of_find?_eq_some hq
    have hid : q.id = position.id := by simpa using List.find?_some hq
    obtain ⟨-, hrow, decision, at_, rfl⟩ := h.reads _ (List.mem_of_getElem? hcall)
    obtain rfl := hrow q hmem hid
    have hfewerRows : (s.desk.book.positions.keep fun p => p.id ≠ q.id).rows ⊆ s.desk.book.positions.rows :=
      List.filter_sublist.subset
    refine ⟨hawaited, hreads, h.settings, h.rows, ?_, ?_⟩
    · change Gap C u (s.desk.book.positions.keep fun p => p.id ≠ q.id).rows (s.closingsAfter i now)
      rw [hclosings]
      intro p hp hu hsource c hc hcu htoken
      obtain hold | hnew := List.mem_append.mp hc
      · exact h.gap p (hfewerRows hp) hu hsource c hold hcu htoken
      · -- the row of a token is the one that has been deleted
        obtain rfl := List.mem_singleton.mp hnew
        have hkeys : (p.userId, p.tokenAddress) = (q.userId, q.tokenAddress) := Prod.ext (hu.trans hcu.symm) htoken.symm
        have hpq : p = q := List.inj_on_of_nodup_map s.desk.book.positions.unique (hfewerRows hp) hmem hkeys
        have hne : p.id ≠ q.id := by simpa using (List.mem_filter.mp hp).2
        exact absurd (congrArg AutoPosition.id hpq) hne
    · change Noted u (s.desk.book.positions.keep fun p => p.id ≠ q.id).rows (s.closingsAfter i now) _ _ _
      rw [hclosings]
      have hopen : q.userId = u → ∃ p ∈ s.desk.book.positions.rows, p.userId = u ∧ p.tokenAddress = q.tokenAddress :=
        fun hu => ⟨q, hmem, hu, rfl⟩
      have hclosed := h.noted.close (c := ⟨q.userId, q.tokenAddress, now⟩) hopen hcallguard
      exact hclosed.mono hfewerRows (fun _ hc => hc) hclock fun j _ _ _ => hpending j
  | gone position trade e hclose =>
    exact hsame rfl (by simp [Trader.closingsAfter, hcall, hclose, Except.toOption])
  | cleared userId =>
    refine hfewer (List.filter_sublist.subset) ?_
    simp only [Trader.closingsAfter, hcall]
    exact List.filter_sublist.subset
  | _ => exact hsame rfl (by simp [Trader.closingsAfter, hcall])

/-! ### The other steps -/

theorem startOpen_reads (input : OpenAutoPositionInput) (positions : PositionTable) :
    ReadsRow positions (startOpen input) := by
  unfold startOpen
  by_cases hpos : input.entryPriceUsd ≤ 0 ∨ input.sizeUsd ≤ 0
  · rw [if_pos hpos]
    trivial
  · rw [if_neg hpos]
    trivial

/-- A step that leaves the book and the closed trades as they are. -/
theorem moved (h : Cooled C u s) (hawaited : Awaited s') (hbook : s'.desk.book = s.desk.book)
    (hreads : ∀ call ∈ s'.desk.calls, ReadsRow s.desk.book.positions call) (hsettings : s'.settings = s.settings)
    (hclosings : s'.closings = s.closings)
    (hrows : ∀ row ∈ s'.picker.rows, row.userId = u → C ≤ row.settings.cooldownMinutes)
    (hnoted : Noted u s.desk.book.positions.rows s.closings s'.desk.calls s'.clock s'.picker) : Cooled C u s' where
  awaited := hawaited
  reads := by
    rw [hbook]
    exact hreads
  settings := by
    unfold Trader.settingsOf
    rw [hsettings]
    exact h.settings
  rows := hrows
  gap := by
    rw [hbook, hclosings]
    exact h.gap
  noted := by
    rw [hbook, hclosings]
    exact hnoted

/-- One more call, that the picker does not wait for. -/
theorem called (h : Cooled C u s) {call : AutoCall} (hread : ReadsRow s.desk.book.positions call)
    (hawaited : Awaited s') (hdesk : s'.desk = (s.call call).desk) (hsettings : s'.settings = s.settings)
    (hclosings : s'.closings = s.closings) (hpicker : s'.picker = s.picker) (hclock : s.clock ≤ s'.clock) :
    Cooled C u s' := by
  have hcalls : s'.desk.calls = s.desk.calls ++ [call] := by
    rw [hdesk]
    rfl
  refine h.moved hawaited (by rw [hdesk]; rfl) ?_ hsettings hclosings (by rw [hpicker]; exact h.rows) ?_
  · rw [hcalls]
    exact List.forall_mem_append.mpr ⟨h.reads, List.forall_mem_singleton.mpr hread⟩
  · rw [hcalls, hpicker]
    refine h.noted.mono (fun _ hp => hp) (fun _ hc => hc) hclock fun i pass todo hp hpending => ?_
    rwa [h.awaited.getElem?_call hp call] at hpending

/-- A step that leaves the picker where it is. -/
theorem rests (h : Cooled C u s) (hawaited : Awaited s') (hdesk : s'.desk = s.desk)
    (hsettings : s'.settings = s.settings) (hclosings : s'.closings = s.closings) (hpicker : s'.picker = s.picker)
    (hclock : s.clock ≤ s'.clock) : Cooled C u s' := by
  refine h.moved hawaited (by rw [hdesk]) (by rw [hdesk]; exact h.reads) hsettings hclosings
    (by rw [hpicker]; exact h.rows) ?_
  rw [hdesk, hpicker]
  exact h.noted.mono (fun _ hp => hp) (fun _ hc => hc) hclock fun _ _ _ _ hpending => hpending

/-- The picker goes on. -/
theorem goes (h : Cooled C u s) {picker : Picker} {clock : ℤ} (hawaited : Awaited { s with picker, clock })
    (hrows : ∀ row ∈ picker.rows, row.userId = u → C ≤ row.settings.cooldownMinutes)
    (hnoted : Noted u s.desk.book.positions.rows s.closings s.desk.calls clock picker) :
    Cooled C u { s with picker, clock } :=
  h.moved hawaited rfl h.reads rfl rfl hrows hnoted

theorem settings_step (h : Cooled C u s) {userId : String} {patch : SettingsPatch} {now : ℤ}
    (hawaited : Awaited { s.updatePortfolioSettings userId patch now with clock := now })
    (hguard : Unraced C u s (.updatePortfolioSettings userId patch now)) :
    Cooled C u { s.updatePortfolioSettings userId patch now with clock := now } := by
  obtain ⟨hclock, hpatch⟩ := hguard
  refine ⟨hawaited, h.reads, ?_, h.rows, h.gap, ?_⟩
  · change C ≤ ((s.updatePortfolioSettings userId patch now).settingsOf u).cooldownMinutes
    rw [settingsOf_update s userId patch now u]
    by_cases hu : u = userId
    · subst hu
      rw [if_pos rfl]
      change C ≤ (patch.cooldownMinutes.map fun n => max 0 (min 1440 n)).getD (s.settingsOf u).cooldownMinutes
      cases hn : patch.cooldownMinutes with
      | none => exact h.settings
      | some n => exact hpatch rfl n hn
    · rw [if_neg hu]
      exact h.settings
  · exact h.noted.mono (fun _ hp => hp) (fun _ hc => hc) hclock fun _ _ _ _ hpending => hpending

/-- The open positions are answered; what was closed before is known, or is still to be asked for. -/
theorem openAddrs_noted (h : Cooled C u s) {row : PickerRow} {tokens : List HotToken} {slots readAt : ℤ}
    {recentClosed : Option (List String)} {todo : List PickerRow}
    (hp : s.picker = .reading row tokens slots readAt none recentClosed todo) :
    Noted u s.desk.book.positions.rows s.closings s.desk.calls s.clock
      (.read row tokens slots readAt (some (s.openAddrs row.userId)) recentClosed todo) := by
  have hnoted := h.noted
  rw [hp] at hnoted
  have hopen : row.userId = u → ∀ p ∈ s.desk.book.positions.rows, p.userId = u →
      p.tokenAddress ∈ s.openAddrs row.userId := by
    intro hu p hp hpu
    exact List.mem_map_of_mem (List.mem_filter.mpr ⟨hp, by simp [hpu, hu]⟩)
  cases recentClosed with
  | none =>
    intro hu
    obtain ⟨hnodup, hread, -, -⟩ := hnoted hu
    refine ⟨hnodup, hread, fun skip hskip => ?_, fun hnone => by cases hnone⟩
    obtain rfl := Option.some.inj hskip
    exact hopen hu
  | some skip =>
    intro hu
    obtain ⟨hnodup, hread, -, hclosed⟩ := hnoted hu
    refine ⟨hnodup, hread, fun p hp hpu => ?_, fun c hc hcu hcut => ?_⟩
    · exact List.mem_append_left _ (List.mem_append_left _ (hopen hu p hp hpu))
    · exact List.mem_append_left _ (List.mem_append_right _ (hclosed rfl skip rfl c hc hcu hcut))

theorem recentClosed_noted (h : Cooled C u s) {row : PickerRow} {tokens : List HotToken} {slots readAt : ℤ}
    {openAddrs : Option (List String)} {todo : List PickerRow}
    (hp : s.picker = .reading row tokens slots readAt openAddrs none todo) :
    Noted u s.desk.book.positions.rows s.closings s.desk.calls s.clock
      (.read row tokens slots readAt openAddrs
        (some (s.recentClosed row.userId (readAt - row.settings.cooldownMinutes * 60000))) todo) := by
  have hnoted := h.noted
  rw [hp] at hnoted
  have hclosed : row.userId = u → ∀ c ∈ s.closings, c.userId = u → cutOf row readAt < c.closedAt →
      c.tokenAddress ∈ s.recentClosed row.userId (readAt - row.settings.cooldownMinutes * 60000) := by
    intro hu c hc hcu hcut
    unfold cutOf at hcut
    exact List.mem_map_of_mem (List.mem_filter.mpr ⟨hc, decide_eq_true ⟨hcu.trans hu.symm, hcut⟩⟩)
  cases openAddrs with
  | none =>
    intro hu
    obtain ⟨hnodup, hread, -, -⟩ := hnoted hu
    refine ⟨hnodup, hread, fun skip hskip => absurd hskip (Option.not_mem_none skip), fun _ skip hskip => ?_⟩
    obtain rfl := Option.some.inj hskip
    exact hclosed hu
  | some skip =>
    intro hu
    obtain ⟨hnodup, hread, hopen, -⟩ := hnoted hu
    refine ⟨hnodup, hread, fun p hp hpu => ?_, fun c hc hcu hcut => ?_⟩
    · exact List.mem_append_left _ (List.mem_append_left _ (hopen skip rfl p hp hpu))
    · exact List.mem_append_left _ (List.mem_append_right _ (hclosed hu c hc hcu hcut))

theorem chosen (h : Cooled C u s) {pass : Pass} {todo : List PickerRow} {t : HotToken}
    (hp : s.picker = .picking pass todo) (hawaited : Awaited { s.call (startOpen (pickInput pass.row t)) with
      picker := .opening s.desk.calls.length { pass with next := pass.next + 1 } todo }) :
    Cooled C u { s.call (startOpen (pickInput pass.row t)) with
      picker := .opening s.desk.calls.length { pass with next := pass.next + 1 } todo } := by
  refine h.moved hawaited rfl ?_ rfl rfl (fun row hrow => h.rows row ?_) fun hu => ?_
  · exact List.forall_mem_append.mpr ⟨h.reads, List.forall_mem_singleton.mpr (startOpen_reads _ _)⟩
  · rw [hp]
    exact hrow
  · have hnoted := h.noted
    rw [hp] at hnoted
    obtain ⟨hnodup, hread, hseen⟩ := hnoted hu
    refine ⟨hnodup, hread, hseen.mono (fun _ hp => hp) (fun _ hc => hc) (pass.noted_subset ?_)⟩
    split
    · exact le_refl _
    · exact Nat.le_succ _

/-- The call has come to its end. -/
theorem answered (h : Cooled C u s) {i picked : ℕ} {pass : Pass} {todo : List PickerRow} {call : AutoCall}
    (hp : s.picker = .opening i pass todo) (hcall : s.desk.calls[i]? = some call) (hdone : call.input? = none)
    (hawaited : Awaited { s with picker := .picking { pass with picked } todo }) :
    Cooled C u { s with picker := .picking { pass with picked } todo } := by
  refine h.goes hawaited (fun row hrow => h.rows row ?_) fun hu => ?_
  · rw [hp]
    exact hrow
  · have hnoted := h.noted
    rw [hp] at hnoted
    obtain ⟨hnodup, hread, hseen⟩ := hnoted hu
    have hpending : (s.desk.calls[i]?).any AutoCall.pending = false := by
      rw [hcall]
      simp [AutoCall.pending, hdone]
    rw [hpending, if_neg Bool.false_ne_true] at hseen
    exact ⟨hnodup, hread, hseen⟩

theorem step (h : Cooled C u s) {e : TraderStep} (hguard : Unraced C u s e) (hstep : trader.step s e = some s') :
    Cooled C u s' := by
  have hawaited := h.awaited.step hstep
  have hrows := rows_step (P := fun settings => C ≤ settings.cooldownMinutes) h.settings h.rows hstep
  cases stepped hstep with
  | openManual userId dto hsize =>
    exact h.called (startOpen_reads _ _) hawaited rfl rfl rfl rfl (le_refl _)
  | closeManual userId id exitPriceUsd p => exact h.called (by trivial) hawaited rfl rfl rfl rfl (le_refl _)
  | reset userId => exact h.called (by trivial) hawaited rfl rfl rfl rfl (le_refl _)
  | fired now p todo liveByAddr px decision hw hdecide =>
    exact h.called (by trivial) hawaited rfl rfl rfl rfl hguard
  | settings userId patch now => exact h.settings_step hawaited hguard
  | advance i now call next book hcall hadvanced => exact h.advance hguard hcall hadvanced
  | watch pool now liveByAddr batches hw => exact h.rests hawaited rfl rfl rfl rfl hguard
  | tickOver now liveByAddr hw => exact h.rests hawaited rfl rfl rfl rfl hguard
  | noPrice now p todo liveByAddr hw => exact h.rests hawaited rfl rfl rfl rfl hguard
  | kept now p todo liveByAddr px hw hdecide => exact h.rests hawaited rfl rfl rfl rfl hguard
  | pick hp => exact ⟨hawaited, h.reads, h.settings, hrows, h.gap, trivial⟩
  | pickOver scan hp => exact h.goes hawaited hrows trivial
  | passOver scan row todo hp => exact h.goes hawaited hrows trivial
  | counted scan row todo slots hp hslots hcount => exact h.goes hawaited hrows fun _ => hguard
  | since now row tokens slots todo hp =>
    refine h.goes hawaited hrows fun hu => ?_
    have hnoted := h.noted
    rw [hp] at hnoted
    exact ⟨hnoted hu, le_refl _, fun skip hskip => absurd hskip (Option.not_mem_none skip),
      fun _ skip hskip => absurd hskip (Option.not_mem_none skip)⟩
  | readOpenAddrs row tokens slots readAt recentClosed todo hp => exact h.goes hawaited hrows (h.openAddrs_noted hp)
  | readRecentClosed row tokens slots readAt openAddrs todo hp =>
    exact h.goes hawaited hrows (h.recentClosed_noted hp)
  | passEnds pass todo hp => exact h.goes hawaited hrows trivial
  | skipped pass todo hp =>
    refine h.goes hawaited hrows fun hu => ?_
    have hnoted := h.noted
    rw [hp] at hnoted
    obtain ⟨hnodup, hread, hseen⟩ := hnoted hu
    exact ⟨hnodup, hread, hseen.mono (fun _ hp => hp) (fun _ hc => hc) (pass.noted_subset (Nat.le_succ _))⟩
  | chosen pass todo t hp hroom ht hwants => exact h.chosen hp hawaited
  | picked i pass todo position hp hcall => exact h.answered hp hcall rfl hawaited
  | unpicked i pass todo hp hcall => exact h.answered hp hcall rfl hawaited
  | prices responses positions pooled live batches hw => exact h.rests hawaited rfl rfl rfl rfl (le_refl _)
  | closed i todo liveByAddr hw => exact h.rests hawaited rfl rfl rfl rfl (le_refl _)

end Cooled

/-- While no hand interferes with a pass of the user, a position of the picker comes at least `C` minutes after what was
closed of its token. -/
theorem picker_cooldown (hC : C ≤ 15) {es : List TraderStep} {s : Trader}
    (hrun : trader.GuardedRun (Unraced C u) {} es s) : ∀ p ∈ s.desk.book.positions.rows, p.userId = u →
      p.source = "auto_picker" → ∀ c ∈ s.closings, c.userId = u → c.tokenAddress = p.tokenAddress →
        c.closedAt + C * 60000 ≤ p.openedAt := by
  have h : Cooled C u s := hrun.invariant (fun _ _ _ h hguard hstep => h.step hguard hstep) (.initial hC)
  exact h.gap

end Cooldown

/-! ## A run -/

def pepeMint : HotToken :=
  { address := "pepe", symbol := "PEPE", name := "Pepe", priceUsd := 2, score := 80, verdict := .STRONG_BUY,
    summary := "hot tape" }

/-- A pass over one token up to the choice, at a time. -/
def passAt (now : ℤ) : List TraderStep :=
  [.pick, .pickForUser (some [pepeMint]), .since now, .readRecentClosed, .readOpenAddrs, .pickNext]

/-- The picker opens a position, which is closed by hand; it leaves the token alone for a quarter of an hour. -/
def pickedTwice : List TraderStep :=
  .updatePortfolioSettings "ann" { autoEnabled := some true } 0 ::
    (passAt 1 ++ [.advance 0 2, .advance 0 2, .picked, .pickNext, .pickForUser none, .closeManual "ann" 0 none,
      .advance 1 3, .advance 1 4] ++ passAt 5 ++ [.pickNext, .pickForUser none] ++ passAt 900004 ++
      [.advance 2 900005, .advance 2 900005, .picked])

theorem pickedTwice_capacity : ∃ s, trader.run {} pickedTwice = some s ∧
    pickedCount s.desk.book "ann" = 1 ∧ (pickedCount s.desk.book "ann" : ℤ) ≤ 10 := by
  have hany : (trader.guardedRun (AllowsAtMost 10 "ann") {} pickedTwice).any
      (fun s => decide (pickedCount s.desk.book "ann" = 1)) = true := by decide +kernel
  obtain ⟨s, hs, hcount⟩ := (Option.any_eq_true _ _).mp hany
  have hrun := StepSystem.GuardedRun.of_guardedRun hs
  exact ⟨s, hrun.run, of_decide_eq_true hcount, picker_capacity (le_refl _) hrun⟩

theorem pickedTwice_exposure : ∃ s, trader.run {} pickedTwice = some s ∧
    s.desk.book.positions.rows.map AutoPosition.sizeUsd = [200] ∧
    ((s.desk.book.positions.rows.filter fun p => p.userId = "ann" ∧ p.source = "auto_picker").map
      AutoPosition.sizeUsd).sum ≤ (10 : ℤ) * 200 := by
  have hany : (trader.guardedRun (fun s e => AllowsAtMost 10 "ann" s e ∧ KeepsStakes 200 70 "ann" s e) {}
      pickedTwice).any (fun s => decide (s.desk.book.positions.rows.map AutoPosition.sizeUsd = [200])) = true := by
    decide +kernel
  obtain ⟨s, hs, hsizes⟩ := (Option.any_eq_true _ _).mp hany
  have hrun := StepSystem.GuardedRun.of_guardedRun hs
  exact ⟨s, hrun.run, of_decide_eq_true hsizes,
    (picker_exposure (le_refl _) (le_refl _) ⟨by omega, le_refl _⟩ hrun).1⟩

theorem pickedTwice_cooldown : ∃ s, trader.run {} pickedTwice = some s ∧
    s.closings = [⟨"ann", "pepe", 4⟩] ∧ s.desk.book.positions.rows.map AutoPosition.openedAt = [900005] ∧
    ∀ p ∈ s.desk.book.positions.rows, p.userId = "ann" → p.source = "auto_picker" → p.tokenAddress = "pepe" →
      900004 ≤ p.openedAt := by
  have hany : (trader.guardedRun (Unraced 15 "ann") {} pickedTwice).any (fun s =>
      decide (s.closings = [⟨"ann", "pepe", 4⟩] ∧ s.desk.book.positions.rows.map AutoPosition.openedAt = [900005])) =
        true := by decide +kernel
  obtain ⟨s, hs, hfinal⟩ := (Option.any_eq_true _ _).mp hany
  have hrun := StepSystem.GuardedRun.of_guardedRun hs
  obtain ⟨hclosings, hopened⟩ := of_decide_eq_true hfinal
  refine ⟨s, hrun.run, hclosings, hopened, fun p hp hu hsource htoken => ?_⟩
  have hclosed : ⟨"ann", "pepe", 4⟩ ∈ s.closings := by rw [hclosings]; exact List.mem_singleton_self _
  have hgap := picker_cooldown (le_refl _) hrun p hp hu hsource _ hclosed rfl htoken.symm
  simpa using hgap

end SuperAi.AutoTrading
