import SuperAi.Foundations.SingleUse
import SuperAi.Snipe.SnipeFast

/-! # No double buy

The lock and the query of `execute` let a second snipe of a mint begin only when the first is over or its row
is marked failed. So a user buys a mint once as long as a snipe gives up only transactions that have failed or
expired: an error after a broadcast and the ten seconds of `waitForStatus` are not enough for that.
-/
namespace SuperAi.Snipe
open SuperAi.Foundations
set_option autoImplicit false

variable {now now' t₀ : ℤ} {userId mint : String} {txs txs' : List BuyTx} {row : Option SnipeTradeRow}
  {n n' : FastSnipe} {s s' : SnipeFast}

/-! ## The property and its condition -/

namespace FastSnipe

def For (userId mint : String) (n : FastSnipe) : Prop := n.userId = userId ∧ n.mint = mint

/-- No transaction of the snipe has bought or can still buy. -/
def Spent (now : ℤ) (n : FastSnipe) : Prop := ∀ tx ∈ n.txs, ¬ tx.MayBuy now

end FastSnipe

/-- The transaction of a number, of the snipe of a number, succeeds. -/
def SnipeFast.Succeeds (userId mint : String) (s : SnipeFast) (i sig : ℕ) : Prop :=
  ∃ n, s.snipes[i]? = some n ∧ n.For userId mint ∧ ∃ tx, n.txs[sig]? = some tx ∧ tx.fate = .succeeded

/-- At most one buy succeeds, and none of a snipe whose row is failed. -/
structure BoughtOnce (userId mint : String) (s : SnipeFast) : Prop where
  once : ∀ i j a b, s.Succeeds userId mint i a → s.Succeeds userId mint j b → i = j ∧ a = b
  failed : ∀ n ∈ s.snipes, n.For userId mint → ∀ row ∈ n.row, row.status = .failed →
    ∀ tx ∈ n.txs, tx.fate ≠ .succeeded

/-- The calls for a user and a mint come within five minutes. -/
def InFiveMinutes (t₀ : ℤ) (userId mint : String) (s : SnipeFast) : SnipeEvent → Prop
  | .execute u m => u = userId → m = mint → t₀ ≤ s.now ∧ s.now ≤ t₀ + 300000
  | _ => True

/-- An error of the broadcast or of its record, and the end of `markFailed`. -/
def SnipeStage.givesUp : SnipeStage → SnipeStep → Bool
  | .sending _, .throws => true
  | .recording _, .throws => true
  | .failing _, .returns => true
  | _, _ => false

/-- A snipe for the user and the mint gives up only what has failed or expired. -/
def GivesUpSpent (userId mint : String) (s : SnipeFast) : SnipeEvent → Prop
  | .step i e => ∀ n ∈ s.snipes[i]?, n.For userId mint → n.stage.givesUp e = true → n.Spent s.now
  | _ => True

/-! ## Transactions that may buy -/

/-- All transactions but one, if one is named, have failed or expired. -/
def OnlyMayBuy (now : ℤ) (txs : List BuyTx) (k : Option ℕ) : Prop :=
  ∀ sig tx, txs[sig]? = some tx → tx.MayBuy now → k = some sig

namespace OnlyMayBuy
variable {k : Option ℕ}

theorem of_spent (h : ∀ tx ∈ txs, ¬ tx.MayBuy now) (k : Option ℕ) : OnlyMayBuy now txs k :=
  fun _ tx htx hmay => absurd hmay (h tx (List.mem_of_getElem? htx))

theorem of_nil (h : txs = []) (k : Option ℕ) : OnlyMayBuy now txs k :=
  of_spent (fun _ htx => absurd (h ▸ htx) List.not_mem_nil) k

theorem spent (h : OnlyMayBuy now txs none) : ∀ tx ∈ txs, ¬ tx.MayBuy now := by
  intro tx htx hmay
  obtain ⟨sig, hsig⟩ := List.mem_iff_getElem?.mp htx
  cases h sig tx hsig hmay

theorem later (h : OnlyMayBuy now txs k) (hle : now ≤ now') : OnlyMayBuy now' txs k := by
  intro sig tx htx hmay
  apply h sig tx htx
  exact hmay.imp_right fun ⟨hpending, hvalid⟩ => ⟨hpending, Int.le_trans hle hvalid⟩

theorem sent (h : OnlyMayBuy now txs none) (tx : BuyTx) : OnlyMayBuy now (txs ++ [tx]) (some txs.length) := by
  intro sig other hother hmay
  by_cases hold : sig < txs.length
  · rw [List.getElem?_append_left hold] at hother
    cases h sig other hother hmay
  · have hbound := (List.getElem?_eq_some_iff.mp hother).1
    rw [List.length_append, List.length_singleton] at hbound
    congr 1
    omega

/-- What lands could land. -/
theorem landed (h : OnlyMayBuy now txs k) {sig : ℕ} {tx : BuyTx} (htx : txs[sig]? = some tx)
    (hmay : tx.MayBuy now) (tx' : BuyTx) : OnlyMayBuy now (txs.set sig tx') k := by
  intro other tx'' htx'' hmay'
  by_cases hother : other = sig
  · rw [hother]
    exact h sig tx htx hmay
  · rw [List.getElem?_set_ne (Ne.symm hother)] at htx''
    exact h other tx'' htx'' hmay'

theorem ruled_out {sig : ℕ} (h : OnlyMayBuy now txs (some sig)) {tx : BuyTx} (htx : txs[sig]? = some tx)
    (hmay : ¬ tx.MayBuy now) : OnlyMayBuy now txs none := by
  intro other tx' htx' hmay'
  obtain rfl := Option.some.inj (h other tx' htx' hmay')
  obtain rfl := Option.some.inj (htx.symm.trans htx')
  exact absurd hmay' hmay

end OnlyMayBuy

/-! ## One snipe -/

/-- Guard 2 of another call would find the row. -/
def recorded (row : Option SnipeTradeRow) : Bool :=
  row.any fun row => row.status = .confirmed ∨ row.status = .broadcast

/-- The row is that of the signature, and still broadcast. -/
def RowOf (sig : ℕ) (row : Option SnipeTradeRow) : Prop := ∃ createdAt, row = some ⟨some sig, .broadcast, createdAt⟩

theorem RowOf.recorded {sig : ℕ} (h : RowOf sig row) : recorded row = true := by
  obtain ⟨createdAt, rfl⟩ := h
  rfl

/-- What holds of the transactions and the row wherever a snipe waits. -/
def SoundAt (now : ℤ) (txs : List BuyTx) (row : Option SnipeTradeRow) : SnipeStage → Prop
  | .querying | .building => txs = [] ∧ row = none
  | .sending sig0 | .recording sig0 => OnlyMayBuy now txs (some sig0) ∧ row = none
  | .noting => OnlyMayBuy now txs none ∧ row = none
  | .waiting currentSig _ _ | .confirming currentSig => OnlyMayBuy now txs (some currentSig) ∧ RowOf currentSig row
  | .checking currentSig _ | .rebuilding currentSig _ => OnlyMayBuy now txs none ∧ RowOf currentSig row
  | .resending currentSig _ retrySig | .updating currentSig _ retrySig =>
    OnlyMayBuy now txs (some retrySig) ∧ RowOf currentSig row
  | .failing currentSig => (∃ k, OnlyMayBuy now txs k) ∧ RowOf currentSig row
  | .ended => (∃ k, OnlyMayBuy now txs k) ∧ (recorded row = false → OnlyMayBuy now txs none)

def FastSnipe.Sound (now : ℤ) (n : FastSnipe) : Prop := SoundAt now n.txs n.row n.stage

theorem SoundAt.mono {stage : SnipeStage} (h : SoundAt now txs row stage) (hnil : txs = [] → txs' = [])
    (htxs : ∀ k, OnlyMayBuy now txs k → OnlyMayBuy now' txs' k) : SoundAt now' txs' row stage := by
  cases stage with
  | querying => exact h.imp_left hnil
  | building => exact h.imp_left hnil
  | failing currentSig => exact h.imp_left (Exists.imp htxs)
  | ended => exact ⟨h.1.imp htxs, fun hrow => htxs none (h.2 hrow)⟩
  | _ => exact h.imp_left (htxs _)

/-- In every stage at most one transaction may buy. -/
theorem SoundAt.one {stage : SnipeStage} (h : SoundAt now txs row stage) : ∃ k, OnlyMayBuy now txs k := by
  cases stage with
  | querying => exact ⟨none, .of_nil h.1 none⟩
  | building => exact ⟨none, .of_nil h.1 none⟩
  | failing currentSig => exact h.1
  | ended => exact h.1
  | _ => exact ⟨_, h.1⟩

/-- A row that is marked failed is not found any more. -/
theorem SoundAt.spent_of_failed {stage : SnipeStage} {r : SnipeTradeRow} (h : SoundAt now txs (some r) stage)
    (hfailed : r.status = .failed) : ∀ tx ∈ txs, ¬ tx.MayBuy now := by
  have hunrecorded : recorded (some r) = false := by simp [recorded, hfailed]
  cases stage with
  | ended => exact (h.2 hunrecorded).spent
  | querying => cases h.2
  | building => cases h.2
  | sending sig0 => cases h.2
  | recording sig0 => cases h.2
  | noting => cases h.2
  | _ => exact absurd h.2.recorded (by simp [hunrecorded])

/-! ## The steps of one snipe -/

namespace FastSnipe

theorem Sound.land {sig : ℕ} {fate : TxFate} (h : n.Sound now) (hstep : n.land now sig fate = some n') :
    n'.Sound now := by
  unfold FastSnipe.land at hstep
  obtain ⟨tx, htx, hstep⟩ := Option.bind_eq_some_iff.mp hstep
  obtain ⟨⟨hpending, -, hvalid⟩, hstep⟩ := Option.ite_none_right_eq_some.mp hstep
  obtain rfl := Option.some.inj hstep
  refine SoundAt.mono h (fun hnil => by simp [hnil]) fun k hk => ?_
  exact hk.landed htx (.inr ⟨hpending, hvalid⟩) _

theorem Sound.sends (h : n.Sound now) (hstep : n.sends now = some n') : n'.Sound now := by
  obtain ⟨userId, mint, startedAt, stage, txs, row⟩ := n
  cases stage with
  | building =>
    obtain rfl := Option.some.inj hstep
    exact ⟨OnlyMayBuy.sent (.of_nil h.1 none) _, h.2⟩
  | rebuilding currentSig attempt =>
    obtain rfl := Option.some.inj hstep
    exact ⟨OnlyMayBuy.sent h.1 _, h.2⟩
  | _ => cases hstep

theorem Sound.polled {currentSig attempt : ℕ} {since : ℤ} {tx : BuyTx} {stage : SnipeStage}
    (h : SoundAt now txs row (.waiting currentSig attempt since)) (htx : txs[currentSig]? = some tx)
    (hstage : polled currentSig attempt tx.fate = some stage) : SoundAt now txs row stage := by
  obtain ⟨honly, hrow⟩ := h
  cases hfate : tx.fate with
  | pending =>
    rw [hfate] at hstage
    cases hstage
  | succeeded =>
    rw [hfate] at hstage
    obtain rfl := Option.some.inj hstage
    exact ⟨honly, hrow⟩
  | slippage =>
    rw [hfate] at hstage
    obtain rfl := Option.some.inj hstage
    exact ⟨honly.ruled_out htx (by simp [BuyTx.MayBuy, hfate]), hrow⟩
  | failed =>
    rw [hfate] at hstage
    obtain rfl := Option.some.inj hstage
    exact ⟨⟨_, honly⟩, hrow⟩

theorem Sound.returns {existingBuy alreadyDone : Bool} (h : n.Sound now)
    (hguard : n.stage.givesUp .returns = true → n.Spent now)
    (hstep : n.returns now existingBuy alreadyDone = some n') : n'.Sound now := by
  obtain ⟨userId, mint, startedAt, stage, txs, row⟩ := n
  cases stage with
  | querying =>
    obtain rfl := Option.some.inj hstep
    cases existingBuy with
    | true => exact ⟨SoundAt.one h, fun _ => .of_nil h.1 none⟩
    | false => exact h
  | building => cases hstep
  | sending sig0 =>
    obtain rfl := Option.some.inj hstep
    exact h
  | recording sig0 =>
    obtain rfl := Option.some.inj hstep
    exact ⟨h.1, now, rfl⟩
  | noting =>
    obtain rfl := Option.some.inj hstep
    exact ⟨SoundAt.one h, fun _ => h.1⟩
  | waiting currentSig attempt since =>
    obtain ⟨tx, htx, hstep⟩ := Option.bind_eq_some_iff.mp hstep
    obtain ⟨stage, hpolled, rfl⟩ := Option.map_eq_some_iff.mp hstep
    exact Sound.polled h htx hpolled
  | confirming currentSig =>
    obtain rfl := Option.some.inj hstep
    obtain ⟨honly, createdAt, rfl⟩ := h
    refine ⟨⟨_, honly⟩, fun hunrecorded => ?_⟩
    simp [updateRow, recorded] at hunrecorded
  | checking currentSig attempt =>
    obtain rfl := Option.some.inj hstep
    by_cases hdone : (alreadyDone || MAX_TOTAL_ATTEMPTS ≤ attempt + 1) = true
    · simp only [Sound, hdone, if_true]
      exact ⟨SoundAt.one h, h.2⟩
    · simp only [Sound, if_neg hdone]
      exact h
  | rebuilding currentSig attempt => cases hstep
  | resending currentSig attempt retrySig =>
    obtain rfl := Option.some.inj hstep
    exact h
  | updating currentSig attempt retrySig =>
    obtain rfl := Option.some.inj hstep
    obtain ⟨honly, createdAt, rfl⟩ := h
    refine ⟨honly, createdAt, ?_⟩
    simp [updateRow]
  | failing currentSig =>
    obtain rfl := Option.some.inj hstep
    exact ⟨SoundAt.one h, fun _ => .of_spent (hguard rfl) none⟩
  | ended => cases hstep

theorem Sound.throws {stage : SnipeStage} (h : n.Sound now)
    (hguard : n.stage.givesUp .throws = true → n.Spent now) (hstep : thrown n.stage = some stage) :
    SoundAt now n.txs n.row stage := by
  have hone := SoundAt.one h
  obtain ⟨userId, mint, startedAt, thrower, txs, row⟩ := n
  cases thrower with
  | querying =>
    obtain rfl := Option.some.inj hstep
    exact ⟨hone, fun _ => .of_nil h.1 none⟩
  | building =>
    obtain rfl := Option.some.inj hstep
    exact ⟨.of_nil h.1 none, h.2⟩
  | sending sig0 =>
    obtain rfl := Option.some.inj hstep
    exact ⟨.of_spent (hguard rfl) none, h.2⟩
  | recording sig0 =>
    obtain rfl := Option.some.inj hstep
    exact ⟨.of_spent (hguard rfl) none, h.2⟩
  | noting =>
    obtain rfl := Option.some.inj hstep
    exact ⟨hone, fun _ => h.1⟩
  | waiting currentSig attempt since => cases hstep
  | ended => cases hstep
  | rebuilding currentSig attempt =>
    obtain rfl := Option.some.inj hstep
    exact ⟨hone, h.2⟩
  | resending currentSig attempt retrySig =>
    obtain rfl := Option.some.inj hstep
    exact ⟨hone, h.2⟩
  | _ =>
    -- the monitor is over, and the row still broadcast
    obtain rfl := Option.some.inj hstep
    exact ⟨hone, fun hunrecorded => absurd h.2.recorded (by simp [hunrecorded])⟩

theorem Sound.timesOut (h : n.Sound now) (hstep : n.timesOut now = some n') : n'.Sound now := by
  obtain ⟨userId, mint, startedAt, stage, txs, row⟩ := n
  cases stage with
  | waiting currentSig attempt since =>
    obtain ⟨-, hstep⟩ := Option.ite_none_right_eq_some.mp hstep
    obtain rfl := Option.some.inj hstep
    exact ⟨SoundAt.one h, h.2⟩
  | _ => cases hstep

theorem Sound.step {existingBuy alreadyDone : Bool} {e : SnipeStep} (h : n.Sound now)
    (hguard : n.stage.givesUp e = true → n.Spent now)
    (hstep : n.step now existingBuy alreadyDone e = some n') : n'.Sound now := by
  cases e with
  | lands sig fate => exact h.land hstep
  | noSession =>
    obtain ⟨hstage, hstep⟩ := Option.ite_none_right_eq_some.mp hstep
    obtain rfl := Option.some.inj hstep
    unfold Sound at h
    rw [hstage] at h
    exact ⟨SoundAt.one h, fun _ => .of_nil h.1 none⟩
  | sends => exact h.sends hstep
  | returns => exact h.returns hguard hstep
  | throws =>
    obtain ⟨stage, hthrown, rfl⟩ := Option.map_eq_some_iff.mp hstep
    exact h.throws hguard hthrown
  | timesOut => exact h.timesOut hstep

end FastSnipe

/-! ## What a step does to the others -/

/-- Past guard 2, under the lock. -/
def SnipeStage.buying : SnipeStage → Bool
  | .building | .sending _ | .recording _ => true
  | _ => false

/-- A snipe keeps its user and mint, does not get the lock back, and a row is recorded under the lock. -/
structure Advances (now : ℤ) (existingBuy : Bool) (n n' : FastSnipe) : Prop where
  userId : n'.userId = n.userId
  mint : n'.mint = n.mint
  startedAt : n'.startedAt = n.startedAt
  locked : n'.stage.locked = true → n.stage.locked = true
  buying : n'.stage.buying = true → n.stage.buying = true ∨ n.stage = .querying ∧ existingBuy = false
  recorded : n.Sound now → recorded n'.row = true → recorded n.row = true ∨ n.stage.buying = true
  createdAt : ∀ row ∈ n'.row, row.createdAt = now ∨ ∃ r ∈ n.row, r.createdAt = row.createdAt

namespace Advances
variable {existingBuy alreadyDone : Bool} {e : SnipeStep} {stage : SnipeStage}

theorem of_stage (hlocked : stage.locked = true → n.stage.locked = true)
    (hbuying : stage.buying = true → n.stage.buying = true ∨ n.stage = .querying ∧ existingBuy = false)
    (txs : List BuyTx) : Advances now existingBuy n { n with stage := stage, txs := txs } where
  userId := rfl
  mint := rfl
  startedAt := rfl
  locked := hlocked
  buying := hbuying
  recorded := fun _ => .inl
  createdAt := fun row hrow => .inr ⟨row, hrow, rfl⟩

/-- The stages after the lock. -/
theorem of_after (hlocked : stage.locked = false) (hbuying : stage.buying = false) (txs : List BuyTx) :
    Advances now existingBuy n { n with stage := stage, txs := txs } :=
  of_stage (fun h => by simp [hlocked] at h) (fun h => by simp [hbuying] at h) txs

theorem of_updateRow {sig : ℕ} {f : SnipeTradeRow → SnipeTradeRow} (hlocked : stage.locked = false)
    (hbuying : stage.buying = false) (hrow : n.Sound now → RowOf sig n.row) (hf : ∀ row, (f row).createdAt = row.createdAt) :
    Advances now existingBuy n { n.updateRow sig f with stage := stage } where
  userId := rfl
  mint := rfl
  startedAt := rfl
  locked := fun h => by simp [hlocked] at h
  buying := fun h => by simp [hbuying] at h
  recorded := fun hsound _ => .inl (hrow hsound).recorded
  createdAt := by
    intro row hmem
    obtain ⟨r, hr, rfl⟩ := Option.map_eq_some_iff.mp hmem
    refine .inr ⟨r, hr, ?_⟩
    split
    · exact (hf r).symm
    · rfl

theorem sends (hstep : n.sends now = some n') : Advances now existingBuy n n' := by
  obtain ⟨userId, mint, startedAt, stage, txs, row⟩ := n
  cases stage with
  | building =>
    obtain rfl := Option.some.inj hstep
    exact of_stage (fun _ => rfl) (fun _ => .inl rfl) _
  | rebuilding currentSig attempt =>
    obtain rfl := Option.some.inj hstep
    exact of_after rfl rfl _
  | _ => cases hstep

theorem throws (hstep : FastSnipe.thrown n.stage = some stage) :
    Advances now existingBuy n { n with stage := stage } := by
  have hafter : stage.locked = false ∧ stage.buying = false := by
    revert hstep
    cases n.stage with
    | waiting currentSig attempt since => exact fun hstep => nomatch hstep
    | ended => exact fun hstep => nomatch hstep
    | _ =>
      intro hstep
      obtain rfl := Option.some.inj hstep
      exact ⟨rfl, rfl⟩
  exact of_after hafter.1 hafter.2 n.txs

theorem returns (hstep : n.returns now existingBuy alreadyDone = some n') :
    Advances now existingBuy n n' := by
  obtain ⟨userId, mint, startedAt, stage, txs, row⟩ := n
  cases stage with
  | querying =>
    obtain rfl := Option.some.inj hstep
    cases existingBuy with
    | true => exact of_after rfl rfl _
    | false => exact of_stage (fun _ => rfl) (fun _ => .inr ⟨rfl, rfl⟩) _
  | building => cases hstep
  | sending sig0 =>
    obtain rfl := Option.some.inj hstep
    exact of_stage (fun _ => rfl) (fun _ => .inl rfl) _
  | recording sig0 =>
    obtain rfl := Option.some.inj hstep
    exact
      { userId := rfl
        mint := rfl
        startedAt := rfl
        locked := fun _ => rfl
        buying := fun hbuying => by cases hbuying
        recorded := fun _ _ => .inr rfl
        createdAt := by
          rintro _ ⟨⟩
          exact .inl rfl }
  | noting =>
    obtain rfl := Option.some.inj hstep
    exact
      { userId := rfl
        mint := rfl
        startedAt := rfl
        locked := fun hlocked => by cases hlocked
        buying := fun hbuying => by cases hbuying
        recorded := fun _ hrecorded => by cases hrecorded
        createdAt := by
          rintro _ ⟨⟩
          exact .inl rfl }
  | waiting currentSig attempt since =>
    obtain ⟨tx, -, hstep⟩ := Option.bind_eq_some_iff.mp hstep
    obtain ⟨stage, hpolled, rfl⟩ := Option.map_eq_some_iff.mp hstep
    revert hpolled
    cases tx.fate with
    | pending => exact fun hpolled => nomatch hpolled
    | _ =>
      intro hpolled
      obtain rfl := Option.some.inj hpolled
      exact of_after rfl rfl _
  | confirming currentSig =>
    obtain rfl := Option.some.inj hstep
    refine of_updateRow rfl rfl (fun hsound => hsound.2) fun row => ?_
    split <;> rfl
  | checking currentSig attempt =>
    obtain rfl := Option.some.inj hstep
    by_cases hdone : (alreadyDone || MAX_TOTAL_ATTEMPTS ≤ attempt + 1) = true
    · simp only [hdone, if_true]
      exact of_after rfl rfl txs
    · simp only [if_neg hdone]
      exact of_after rfl rfl txs
  | rebuilding currentSig attempt => cases hstep
  | resending currentSig attempt retrySig =>
    obtain rfl := Option.some.inj hstep
    exact of_after rfl rfl _
  | updating currentSig attempt retrySig =>
    obtain rfl := Option.some.inj hstep
    exact of_updateRow rfl rfl (fun hsound => hsound.2) fun _ => rfl
  | failing currentSig =>
    obtain rfl := Option.some.inj hstep
    refine of_updateRow rfl rfl (fun hsound => hsound.2) fun row => ?_
    split <;> rfl
  | ended => cases hstep

theorem timesOut (hstep : n.timesOut now = some n') : Advances now existingBuy n n' := by
  obtain ⟨userId, mint, startedAt, stage, txs, row⟩ := n
  cases stage with
  | waiting currentSig attempt since =>
    obtain ⟨-, hstep⟩ := Option.ite_none_right_eq_some.mp hstep
    obtain rfl := Option.some.inj hstep
    exact of_after rfl rfl _
  | _ => cases hstep

theorem step (hstep : n.step now existingBuy alreadyDone e = some n') :
    Advances now existingBuy n n' := by
  cases e with
  | lands sig fate =>
    obtain ⟨tx, -, hstep⟩ := Option.bind_eq_some_iff.mp hstep
    obtain ⟨-, hstep⟩ := Option.ite_none_right_eq_some.mp hstep
    obtain rfl := Option.some.inj hstep
    exact of_stage id .inl _
  | noSession =>
    obtain ⟨-, hstep⟩ := Option.ite_none_right_eq_some.mp hstep
    obtain rfl := Option.some.inj hstep
    exact of_after rfl rfl _
  | sends => exact sends hstep
  | returns => exact returns hstep
  | throws =>
    obtain ⟨stage, hthrown, rfl⟩ := Option.map_eq_some_iff.mp hstep
    exact throws hthrown
  | timesOut => exact timesOut hstep

end Advances

/-! ## One snipe at a time -/

/-- Under the lock past guard 2, or with a row that guard 2 finds. -/
def SnipeStage.claims (stage : SnipeStage) (row : Option SnipeTradeRow) : Bool := stage.buying || recorded row

theorem SoundAt.claims {stage : SnipeStage} {sig : ℕ} {tx : BuyTx} (h : SoundAt now txs row stage)
    (htx : txs[sig]? = some tx) (hmay : tx.MayBuy now) : stage.claims row = true := by
  unfold SnipeStage.claims
  cases stage with
  | querying =>
    rw [h.1] at htx
    cases htx
  | building => rfl
  | sending sig0 => rfl
  | recording sig0 => rfl
  | noting => cases h.1 sig tx htx hmay
  | ended =>
    by_contra hunrecorded
    cases h.2 (by simpa [SnipeStage.buying] using hunrecorded) sig tx htx hmay
  | _ => exact h.2.recorded

namespace FastSnipe

def holdsKey (key : String) (n : FastSnipe) : Bool := n.stage.locked && n.lockKey = key

/-- Another call for the user and the mint has to wait, or is turned away. -/
def claims (userId mint : String) (n : FastSnipe) : Bool :=
  (n.userId = userId && n.mint = mint) && n.stage.claims n.row

theorem claims_iff : n.claims userId mint = true ↔ n.For userId mint ∧ n.stage.claims n.row = true := by
  simp [claims, For]

end FastSnipe

/-- The lock has one holder per key, and among the snipes for the user and the mint one at most buys or has a
row that guard 2 finds. -/
structure Kept (t₀ : ℤ) (userId mint : String) (s : SnipeFast) : Prop where
  held : ∀ n ∈ s.snipes, n.stage.locked = true → n.lockKey ∈ s.execLock
  alone : ∀ key, OneBusy (FastSnipe.holdsKey key) s.snipes
  one : OneBusy (FastSnipe.claims userId mint) s.snipes
  sound : ∀ n ∈ s.snipes, n.For userId mint → n.Sound s.now
  window : ∀ n ∈ s.snipes, n.For userId mint →
    t₀ ≤ s.now ∧ n.startedAt ≤ t₀ + 300000 ∧ ∀ row ∈ n.row, t₀ ≤ row.createdAt

namespace Kept

theorem initial (t₀ : ℤ) (userId mint : String) : Kept t₀ userId mint {} where
  held := fun _ h => nomatch h
  alone := fun _ => .of_idle fun _ h => nomatch h
  one := .of_idle fun _ h => nomatch h
  sound := fun _ h => nomatch h
  window := fun _ h => nomatch h

theorem wait (h : Kept t₀ userId mint s) (ms : ℕ) : Kept t₀ userId mint { s with now := s.now + ms } where
  held := h.held
  alone := h.alone
  one := h.one
  sound := by
    intro n hn hfor
    have hle : s.now ≤ s.now + ms := by omega
    exact SoundAt.mono (h.sound n hn hfor) id fun k hk => hk.later hle
  window := by
    intro n hn hfor
    obtain ⟨hnow, hrest⟩ := h.window n hn hfor
    refine ⟨?_, hrest⟩
    show t₀ ≤ s.now + ms
    omega

theorem execute {u m : String} (h : Kept t₀ userId mint s)
    (hguard : InFiveMinutes t₀ userId mint s (.execute u m)) : Kept t₀ userId mint (s.execute u m) := by
  unfold SnipeFast.execute
  by_cases hkey : (FastSnipe.lockKey { userId := u, mint := m, startedAt := s.now }) ∈ s.execLock
  · simpa only [hkey, if_true] using h
  · simp only [hkey, if_false]
    constructor
    · refine List.forall_mem_append.mpr ⟨fun n hn hlocked => ?_, ?_⟩
      · exact List.mem_cons_of_mem _ (h.held n hn hlocked)
      · exact List.forall_mem_singleton.mpr fun _ => List.mem_cons_self
    · intro key
      apply (h.alone key).append
      intro hnew n hn
      by_contra hheld
      simp only [FastSnipe.holdsKey, Bool.and_eq_true, decide_eq_true_eq, Bool.not_eq_false] at hnew hheld
      rw [hnew.2, ← hheld.2] at hkey
      exact hkey (h.held n hn hheld.1)
    · apply h.one.append
      intro hclaims
      cases (FastSnipe.claims_iff.mp hclaims).2
    · exact List.forall_mem_append.mpr ⟨h.sound, List.forall_mem_singleton.mpr fun _ => ⟨rfl, rfl⟩⟩
    · refine List.forall_mem_append.mpr ⟨h.window, List.forall_mem_singleton.mpr fun hfor => ?_⟩
      obtain ⟨hfirst, hlast⟩ := hguard hfor.1 hfor.2
      exact ⟨hfirst, hlast, fun _ hrow => nomatch hrow⟩

/-- A call that guard 2 lets through is the only one. -/
theorem free (h : Kept t₀ userId mint s) {i : ℕ} (hi : s.snipes[i]? = some n) (hfor : n.For userId mint)
    (hstage : n.stage = .querying) (hguard2 : s.existingBuy n = false) :
    ∀ m ∈ s.snipes, m.claims userId mint = false := by
  intro m hm
  by_contra hclaims
  obtain ⟨hm', hclaims⟩ := FastSnipe.claims_iff.mp (Bool.of_not_eq_false hclaims)
  obtain ⟨j, hj⟩ := List.mem_iff_getElem?.mp hm
  have huser : m.userId = n.userId := hm'.1.trans hfor.1.symm
  have hmint : m.mint = n.mint := hm'.2.trans hfor.2.symm
  obtain hbuying | hrecorded := Bool.or_eq_true_iff.mp hclaims
  · have hlocked : m.stage.locked = true := by
      revert hbuying
      cases m.stage <;> simp [SnipeStage.buying, SnipeStage.locked]
    have hsame : j = i := h.alone n.lockKey j i m n hj hi
      (by simp [FastSnipe.holdsKey, FastSnipe.lockKey, hlocked, huser, hmint])
      (by simp [FastSnipe.holdsKey, hstage, SnipeStage.locked])
    obtain rfl : m = n := Option.some.inj (hj.symm.trans (hsame ▸ hi))
    rw [hstage] at hbuying
    cases hbuying
  · obtain ⟨r, hr, hstatus⟩ := (Option.any_eq_true ..).mp hrecorded
    have hopened := (h.window m hm hm').2.2 r hr
    have hstarted := (h.window n (List.mem_of_getElem? hi) hfor).2.1
    have hrecent : n.startedAt - 300000 ≤ r.createdAt := by omega
    have hrow : m.row.any (fun row => (row.status = .confirmed ∨ row.status = .broadcast) ∧
        n.startedAt - 300000 ≤ row.createdAt) = true :=
      (Option.any_eq_true ..).mpr ⟨r, hr, decide_eq_true ⟨of_decide_eq_true hstatus, hrecent⟩⟩
    have hfound : s.existingBuy n = true :=
      List.any_eq_true.mpr ⟨m, hm, decide_eq_true ⟨huser, hmint, hrow⟩⟩
    rw [hguard2] at hfound
    cases hfound

/-- The key leaves the lock with its holder, and with no one else's. -/
theorem held_advance (h : Kept t₀ userId mint s) {i : ℕ} (hi : s.snipes[i]? = some n)
    (hlocked : n'.stage.locked = true → n.stage.locked = true) (hkey : n'.lockKey = n.lockKey) :
    ∀ m ∈ (s.advance i n n').snipes, m.stage.locked = true → m.lockKey ∈ (s.advance i n n').execLock := by
  intro m hm hmlocked
  obtain ⟨j, hj⟩ := List.mem_iff_getElem?.mp hm
  show m.lockKey ∈ if n.stage.locked && !n'.stage.locked then _ else s.execLock
  by_cases hmoved : j = i
  · subst hmoved
    rw [SnipeFast.advance, List.getElem?_set_self (List.getElem?_eq_some_iff.mp hi).1] at hj
    obtain rfl := Option.some.inj hj
    rw [hmlocked, Bool.not_true, Bool.and_false, if_neg Bool.false_ne_true, hkey]
    exact h.held n (List.mem_of_getElem? hi) (hlocked hmlocked)
  · rw [SnipeFast.advance, List.getElem?_set_ne (Ne.symm hmoved)] at hj
    have hheld := h.held m (List.mem_of_getElem? hj) hmlocked
    by_cases hleaves : (n.stage.locked && !n'.stage.locked) = true
    · rw [if_pos hleaves]
      have hother : m.lockKey ≠ n.lockKey := fun hshared => hmoved (h.alone n.lockKey j i m n hj hi
        (by simp [FastSnipe.holdsKey, hmlocked, hshared])
        (by simp [FastSnipe.holdsKey, (Bool.and_eq_true_iff.mp hleaves).1]))
      exact List.mem_filter.mpr ⟨hheld, decide_eq_true hother⟩
    · rwa [if_neg hleaves]

/-- A snipe that comes to claim the mint has done so before, or nobody else does. -/
theorem claims_advance (h : Kept t₀ userId mint s) {i : ℕ} (hi : s.snipes[i]? = some n)
    (hadv : Advances s.now (s.existingBuy n) n n') (hfor : n.For userId mint)
    (hclaims : n'.stage.claims n'.row = true) :
    n.claims userId mint = true ∨ ∀ m ∈ s.snipes, m.claims userId mint = false := by
  have hkeeps : n.stage.buying = true ∨ recorded n.row = true → n.claims userId mint = true := fun hbefore =>
    FastSnipe.claims_iff.mpr ⟨hfor, Bool.or_eq_true_iff.mpr hbefore⟩
  obtain hbuying | hrecorded := Bool.or_eq_true_iff.mp hclaims
  · obtain hbuying | ⟨hstage, hguard2⟩ := hadv.buying hbuying
    · exact .inl (hkeeps (.inl hbuying))
    · exact .inr (h.free hi hfor hstage hguard2)
  · left
    apply hkeeps
    exact (hadv.recorded (h.sound n (List.mem_of_getElem? hi) hfor) hrecorded).symm

theorem step {i : ℕ} {e : SnipeStep} (h : Kept t₀ userId mint s) (hi : s.snipes[i]? = some n)
    (hguard : n.For userId mint → n.stage.givesUp e = true → n.Spent s.now)
    (hstep : n.step s.now (s.existingBuy n) (s.alreadyDone n) e = some n') :
    Kept t₀ userId mint (s.advance i n n') := by
  have hn := List.mem_of_getElem? hi
  have hadv := Advances.step hstep
  have hkey : n'.lockKey = n.lockKey := by rw [FastSnipe.lockKey, hadv.userId, hadv.mint, FastSnipe.lockKey]
  have hsame : n'.For userId mint → n.For userId mint := fun hfor => by
    rwa [FastSnipe.For, hadv.userId, hadv.mint] at hfor
  constructor
  · exact h.held_advance hi hadv.locked hkey
  · intro key
    apply (h.alone key).set hi
    intro hholds
    simp only [FastSnipe.holdsKey, Bool.and_eq_true, decide_eq_true_eq] at hholds
    left
    simp [FastSnipe.holdsKey, hadv.locked hholds.1, ← hkey, hholds.2]
  · apply h.one.set hi
    intro hclaims
    obtain ⟨hfor, hclaims⟩ := FastSnipe.claims_iff.mp hclaims
    exact h.claims_advance hi hadv (hsame hfor) hclaims
  · intro m hm hfor
    obtain hm | rfl := List.mem_or_eq_of_mem_set hm
    · exact h.sound m hm hfor
    · exact (h.sound n hn (hsame hfor)).step (hguard (hsame hfor)) hstep
  · intro m hm hfor
    obtain hm | rfl := List.mem_or_eq_of_mem_set hm
    · exact h.window m hm hfor
    · obtain ⟨hnow, hstarted, hrows⟩ := h.window n hn (hsame hfor)
      refine ⟨hnow, hadv.startedAt ▸ hstarted, fun row hrow => ?_⟩
      obtain hcreated | ⟨r, hr, hcreated⟩ := hadv.createdAt row hrow
      · rw [hcreated]
        exact hnow
      · rw [← hcreated]
        exact hrows r hr

theorem boughtOnce (h : Kept t₀ userId mint s) : BoughtOnce userId mint s where
  once := by
    rintro i j a b ⟨n, hi, hn, tx, htx, hfate⟩ ⟨m, hj, hm, tx', htx', hfate'⟩
    have hsound := h.sound n (List.mem_of_getElem? hi) hn
    have hsound' := h.sound m (List.mem_of_getElem? hj) hm
    have hsame : i = j := h.one i j n m hi hj
      (FastSnipe.claims_iff.mpr ⟨hn, SoundAt.claims hsound htx (.inl hfate)⟩)
      (FastSnipe.claims_iff.mpr ⟨hm, SoundAt.claims hsound' htx' (.inl hfate')⟩)
    subst hsame
    obtain rfl := Option.some.inj (hi.symm.trans hj)
    obtain ⟨k, honly⟩ := SoundAt.one hsound
    exact ⟨rfl, Option.some.inj ((honly a tx htx (.inl hfate)).symm.trans (honly b tx' htx' (.inl hfate')))⟩
  failed := by
    intro n hn hfor row hrow hfailed tx htx hfate
    have hsound := h.sound n hn hfor
    unfold FastSnipe.Sound at hsound
    rw [Option.mem_def.mp hrow] at hsound
    exact hsound.spent_of_failed hfailed tx htx (.inl hfate)

end Kept

/-- **No double buy.** For calls within five minutes, if snipes for the user and the mint give up only
transactions that have failed or expired, then at most one buy succeeds, and none of a failed row. -/
theorem bought_once {es : List SnipeEvent}
    (h : snipeFast.GuardedRun (fun s e => InFiveMinutes t₀ userId mint s e ∧ GivesUpSpent userId mint s e) {} es s) :
    BoughtOnce userId mint s := by
  refine (h.invariant (I := Kept t₀ userId mint) ?_ (.initial t₀ userId mint)).boughtOnce
  intro s e s' hkept ⟨hwindow, hspent⟩ hstep
  cases e with
  | wait ms =>
    obtain rfl := Option.some.inj hstep
    exact hkept.wait ms
  | execute u m =>
    obtain rfl := Option.some.inj hstep
    exact hkept.execute hwindow
  | step i e =>
    obtain ⟨n, hi, hstep⟩ := Option.bind_eq_some_iff.mp hstep
    obtain ⟨n', hadvance, rfl⟩ := Option.map_eq_some_iff.mp hstep
    exact hkept.step hi (hspent n hi) hadvance

/-! ## Two runs -/

instance (now : ℤ) (tx : BuyTx) : Decidable (tx.MayBuy now) :=
  inferInstanceAs (Decidable (_ ∨ _ ∧ _))

instance (now : ℤ) (n : FastSnipe) : Decidable (n.Spent now) :=
  inferInstanceAs (Decidable (∀ tx ∈ n.txs, ¬ tx.MayBuy now))

instance (userId mint : String) (n : FastSnipe) : Decidable (n.For userId mint) :=
  inferInstanceAs (Decidable (_ ∧ _))

instance (t₀ : ℤ) (userId mint : String) (s : SnipeFast) (e : SnipeEvent) :
    Decidable (InFiveMinutes t₀ userId mint s e) :=
  match e with
  | .execute u m => inferInstanceAs (Decidable (u = userId → m = mint → t₀ ≤ s.now ∧ s.now ≤ t₀ + 300000))
  | .wait _ | .step _ _ => inferInstanceAs (Decidable True)

instance (userId mint : String) (s : SnipeFast) (e : SnipeEvent) : Decidable (GivesUpSpent userId mint s e) :=
  match e with
  | .step i e => inferInstanceAs (Decidable (∀ n ∈ s.snipes[i]?, n.For userId mint →
      n.stage.givesUp e = true → n.Spent s.now))
  | .wait _ | .execute _ _ => inferInstanceAs (Decidable True)

/-- The first transaction fails with slippage and the retry is confirmed; later calls find the lock or the row. -/
theorem retry_boughtOnce : ∃ s, snipeFast.run {}
    [.execute "user" "mint", .execute "user" "mint", .step 0 .returns, .step 0 .sends, .step 0 .returns,
      .step 0 .returns, .execute "user" "mint", .step 1 .returns, .wait 2000, .step 0 (.lands 0 .slippage),
      .step 0 .returns, .step 0 .returns, .step 0 .sends, .step 0 .returns, .step 0 .returns, .wait 3000,
      .step 0 (.lands 1 .succeeded), .step 0 .returns, .step 0 .returns, .execute "user" "mint", .step 2 .returns] =
    some s ∧ s.Succeeds "user" "mint" 0 1 ∧ BoughtOnce "user" "mint" s := by
  have hrun : snipeFast.GuardedRun (fun s e => InFiveMinutes 0 "user" "mint" s e ∧ GivesUpSpent "user" "mint" s e) {}
    [.execute "user" "mint", .execute "user" "mint", .step 0 .returns, .step 0 .sends, .step 0 .returns,
      .step 0 .returns, .execute "user" "mint", .step 1 .returns, .wait 2000, .step 0 (.lands 0 .slippage),
      .step 0 .returns, .step 0 .returns, .step 0 .sends, .step 0 .returns, .step 0 .returns, .wait 3000,
      .step 0 (.lands 1 .succeeded), .step 0 .returns, .step 0 .returns, .execute "user" "mint", .step 2 .returns] _ :=
    .of_guardedRun (Option.eq_some_of_isSome (by decide +kernel))
  exact ⟨_, hrun.run, ⟨_, rfl, ⟨rfl, rfl⟩, _, rfl, rfl⟩, bought_once hrun⟩

/-- The wait ends after ten seconds, the row is marked failed and the mint bought again; then both
transactions land. -/
theorem timeout_buys_twice : ¬ ∀ (t₀ : ℤ) (userId mint : String) (es : List SnipeEvent) (s : SnipeFast),
    snipeFast.GuardedRun (InFiveMinutes t₀ userId mint) {} es s → BoughtOnce userId mint s := by
  intro h
  have hrun := h 0 "user" "mint"
    [.execute "user" "mint", .step 0 .returns, .step 0 .sends, .step 0 .returns, .step 0 .returns, .wait 10000,
      .step 0 .timesOut, .step 0 .returns, .execute "user" "mint", .step 1 .returns, .step 1 .sends, .step 1 .returns,
      .step 1 .returns, .wait 20000, .step 0 (.lands 0 .succeeded), .step 1 (.lands 0 .succeeded)] _
    (.of_guardedRun (Option.eq_some_of_isSome (by decide +kernel)))
  have htwice := (hrun.once 0 1 0 0 ⟨_, rfl, ⟨rfl, rfl⟩, _, rfl, rfl⟩ ⟨_, rfl, ⟨rfl, rfl⟩, _, rfl, rfl⟩).1
  cases htwice

end SuperAi.Snipe
