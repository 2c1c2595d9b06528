import Mathlib.Algebra.BigOperators.Group.List.Basic
import Mathlib.Data.List.DropRight
import Mathlib.Data.String.Basic
import SuperAi.Auth.WalletVerifier
import SuperAi.Foundations.OrderedMap
import SuperAi.Foundations.KeyValue
import SuperAi.Foundations.Regex
import SuperAi.Foundations.StableSort

/-! # Wallet groups

`groupWallets` of the wallets screen (`lib/wallet-groups.ts`), over exact numbers; wallets are of any type that the
fields can be read of. Sets come from the labels, and what makes no set is loose. The group of the loose wallets is
known by its key alone, which is also the key of a set that is named `__loose`.
-/
namespace SuperAi.Wallets
set_option autoImplicit false
open SuperAi.Auth SuperAi.Foundations

inductive GroupMode
  | chain
  | set
  | none
  deriving DecidableEq

/-- What is read of a wallet. -/
structure WalletLike where
  id : String
  chain : Chain
  label : Option String
  isImported : Option Bool
  backedUpAt : Option String
  deriving DecidableEq

structure ChainSplit where
  chain : String
  native : ℚ
  usd : ℚ

structure BalanceLike where
  usd : Option ℚ
  chains : Option (List ChainSplit)
  error : Option String

structure WalletGroup (W : Type) where
  key : String
  title : String
  chain : Option String
  chains : List String
  wallets : List W
  totalUsd : ℚ
  fundedCount : ℕ
  needsBackup : Bool

/-- `'all' | ChainKey`; no key is the name of something that every object has. -/
abbrev NetworkKey := { key : String // key ∉ prototypeKeys }

/-- The network that the screen shows. -/
structure Scope where
  network : NetworkKey
  isAll : Bool

def isTruthy (text : Option String) : Bool := text.any fun s => s ≠ ""

def walletUsd (bal : Option BalanceLike) (wallet : WalletLike) (scope : Scope) : ℚ :=
  match bal with
  | none => 0
  | some bal =>
    if isTruthy bal.error then 0
    else if scope.isAll then bal.usd.getD 0
    else
      match wallet.chain with
      | .SOLANA => if scope.network.1 = "solana" then bal.usd.getD 0 else 0
      | .EVM =>
        match bal.chains with
        | none => 0
        | some chains => ((chains.find? fun c => c.chain = scope.network.1).map ChainSplit.usd).getD 0

def trim (text : List Char) : List Char := (text.dropWhile Regex.space.has).rdropWhile Regex.space.has

def separator : CharSet := Regex.space ++ [('-', '-'), ('_', '_'), ('#', '#')]

/-- `text.replace(/[\s\-_#]*\d+$/, '')`: the first match has all of the digits at the end, and all of the separators
before them. -/
def stripIndex (text : List Char) : List Char :=
  let rest := text.rdropWhile Regex.digit.has
  if rest = text then text else rest.rdropWhile separator.has

def setNameFromLabel (label : Option String) : Option String :=
  match label with
  | none => none
  | some label =>
    let trimmed := trim label.toList
    if trimmed = [] then none
    else
      let stripped := trim (stripIndex trimmed)
      some (String.ofList (if stripped = [] then trimmed else stripped))

def CHAIN_TITLES : List (String × String) :=
  [("solana", "Solana"), ("ethereum", "Ethereum"), ("bsc", "BNB Chain"), ("base", "Base"), ("arbitrum", "Arbitrum"),
    ("polygon", "Polygon"), ("avalanche", "Avalanche"), ("optimism", "Optimism"), ("blast", "Blast")]

def chainTitle (chain : NetworkKey) : String := (KeyValue.get CHAIN_TITLES chain.1).getD chain.1

/-- `localeCompare` orders the texts. -/
structure Collator where
  localeCompare : String → String → ℚ
  consistent : Consistent localeCompare

def LOOSE_KEY : String := "set:__loose"

section Groups
variable {W : Type} (view : W → WalletLike) (balances : KeyValue String BalanceLike) (scope : Scope)

/-- `walletUsd` of a wallet with its own balance. -/
def usdOf (w : W) : ℚ := walletUsd (KeyValue.get balances (view w).id) (view w) scope

/-- `chainValue.set(chain, (chainValue.get(chain) ?? 0) + usd)` -/
def addValue (chainValue : KeyValue String ℚ) (chain : String) (usd : ℚ) : KeyValue String ℚ :=
  KeyValue.put chainValue chain ((KeyValue.get chainValue chain).getD 0 + usd)

/-- What a wallet adds to the value of the chains. -/
def addWallet (chainValue : KeyValue String ℚ) (w : W) : KeyValue String ℚ :=
  let bal := KeyValue.get balances (view w).id
  match (view w).chain with
  | .SOLANA =>
    let usd := (bal.bind BalanceLike.usd).getD 0
    if 0 < usd then addValue chainValue "solana" usd else chainValue
  | .EVM =>
    ((bal.bind BalanceLike.chains).getD []).foldl
      (fun chainValue c => if 0 < c.native then addValue chainValue c.chain c.usd else chainValue) chainValue

def build (key title : String) (members : List W) (chain : Option String) : WalletGroup W :=
  let chainValue := members.foldl (addWallet view balances) []
  let hasSolana := members.any fun w => (view w).chain = .SOLANA
  let hasEvm := members.any fun w => (view w).chain = .EVM
  let chains := (sort (fun a b => b.2 - a.2) chainValue).map Prod.fst
  let fallback := if !scope.isAll && scope.network.1 ≠ "solana" then scope.network.1 else "ethereum"
  { key
    title
    chain
    chains :=
      if chains = [] then (if hasSolana then ["solana"] else []) ++ (if hasEvm then [fallback] else []) else chains
    wallets := members
    totalUsd := (members.map (usdOf view balances scope)).sum
    fundedCount := members.countP fun w => 0 < usdOf view balances scope w
    needsBackup := members.any fun w => !isTruthy (view w).backedUpAt && (view w).isImported ≠ some true }

/-- The name of the set that a wallet is put into. -/
def setOf (w : W) : String := (setNameFromLabel (view w).label).getD "Ungrouped"

/-- `if (members.length) groups.push(build(key, title, members, chain))` -/
def buildUnlessEmpty (key title : String) (members : List W) (chain : Option String) : List (WalletGroup W) :=
  if members.isEmpty then [] else [build view balances scope key title members chain]

/-- The groups before they are sorted. -/
def unsorted (wallets : List W) : GroupMode → List (WalletGroup W)
  | .none => [build view balances scope "all" "All wallets" wallets none]
  | .chain =>
    let solana := wallets.filter fun w => (view w).chain = .SOLANA
    let evm := wallets.filter fun w => (view w).chain = .EVM
    let scopedEvm := !scope.isAll && scope.network.1 ≠ "solana"
    buildUnlessEmpty view balances scope "chain:solana" "Solana" solana (some "solana") ++
      buildUnlessEmpty view balances scope "chain:evm" (if scopedEvm then chainTitle scope.network else "EVM") evm
        (some (if scopedEvm then scope.network.1 else "ethereum"))
  | .set =>
    let bySet := KeyValue.groups (setOf view) wallets
    let (small, named) := bySet.partition fun entry => entry.1 = "Ungrouped" || entry.2.length < 2
    let loose := small.flatMap Prod.snd
    named.map (fun entry => build view balances scope ("set:" ++ entry.1) entry.1 entry.2 none) ++
      buildUnlessEmpty view balances scope LOOSE_KEY "Ungrouped" loose none

/-- The comparator of the groups. Of two groups with the loose key it says that each comes after the other, which is no
answer below zero, so a stable sort leaves them as they are. -/
def compareGroups (collator : Collator) (a b : WalletGroup W) : ℚ :=
  if a.key = LOOSE_KEY then 1
  else if b.key = LOOSE_KEY then -1
  else if b.totalUsd ≠ a.totalUsd then b.totalUsd - a.totalUsd
  else collator.localeCompare a.title b.title

def groupWallets (collator : Collator) (mode : GroupMode) (wallets : List W) : List (WalletGroup W) :=
  if wallets.isEmpty then [] else sort (compareGroups collator) (unsorted view balances scope wallets mode)

/-! ## The order of the groups -/

variable {view balances scope} {collator : Collator}

theorem compareGroups_nonneg_iff {a b : WalletGroup W} : 0 ≤ compareGroups collator b a ↔
    b.key = LOOSE_KEY ∨ a.key ≠ LOOSE_KEY ∧
      (b.totalUsd < a.totalUsd ∨ a.totalUsd = b.totalUsd ∧ 0 ≤ collator.localeCompare b.title a.title) := by
  unfold compareGroups
  by_cases hb : b.key = LOOSE_KEY
  · simp [hb]
  · rw [if_neg hb]
    by_cases ha : a.key = LOOSE_KEY
    · simp [ha, hb]
    · rw [if_neg ha]
      by_cases htotal : a.totalUsd = b.totalUsd
      · simp [ha, hb, htotal]
      · rw [if_pos htotal]
        have hle : b.totalUsd ≤ a.totalUsd ↔ b.totalUsd < a.totalUsd :=
          ⟨fun h => lt_of_le_of_ne h (Ne.symm htotal), le_of_lt⟩
        simp [ha, hb, htotal, hle]

theorem consistent_compareGroups (collator : Collator) : Consistent (@compareGroups W collator) where
  total a b := by
    rw [compareGroups_nonneg_iff, compareGroups_nonneg_iff]
    have htitles := collator.consistent.total a.title b.title
    have htotals := lt_trichotomy a.totalUsd b.totalUsd
    grind
  trans a b c hab hbc := by
    rw [compareGroups_nonneg_iff] at hab hbc ⊢
    have htitles := collator.consistent.trans a.title b.title c.title
    grind

/-- By falling total. -/
def Falling (l : List (WalletGroup W)) : Prop := l.Pairwise fun a b => b.totalUsd ≤ a.totalUsd

/-- What has the key of the loose group stands behind all the rest. -/
theorem split_sorted (collator : Collator) (l : List (WalletGroup W)) : ∃ pre post,
    sort (compareGroups collator) l = pre ++ post ∧ (∀ g ∈ pre, g.key ≠ LOOSE_KEY) ∧
      (∀ g ∈ post, g.key = LOOSE_KEY) ∧ Falling pre := by
  have hsorted := pairwise_sort (consistent_compareGroups collator) l
  generalize sort (compareGroups collator) l = sorted at hsorted ⊢
  induction sorted with
  | nil => exact ⟨[], [], rfl, by simp, by simp, List.Pairwise.nil⟩
  | cons g rest ih =>
    obtain ⟨hfirst, hrest⟩ := List.pairwise_cons.mp hsorted
    by_cases hkey : g.key = LOOSE_KEY
    · refine ⟨[], g :: rest, rfl, by simp, fun x hx => ?_, List.Pairwise.nil⟩
      cases List.mem_cons.mp hx with
      | inl heq => rwa [heq]
      | inr hin => exact (compareGroups_nonneg_iff.mp (hfirst x hin)).resolve_right fun h => h.1 hkey
    · obtain ⟨pre, post, rfl, hpre, hpost, hfalling⟩ := ih hrest
      refine ⟨g :: pre, post, rfl, fun x hx => ?_, hpost, List.pairwise_cons.mpr ⟨fun x hx => ?_, hfalling⟩⟩
      · cases List.mem_cons.mp hx with
        | inl heq => rwa [heq]
        | inr hin => exact hpre x hin
      · have hle := compareGroups_nonneg_iff.mp (hfirst x (List.mem_append_left post hx))
        cases hle.resolve_left (hpre x hx) with
        | intro _ htotals => exact htotals.elim le_of_lt fun h => le_of_eq h.1.symm

/-! ## The groups before they are sorted -/

theorem build_key (key title : String) (members : List W) (chain : Option String) :
    (build view balances scope key title members chain).key = key := rfl

/-- What the wallets are worth together under the scope. -/
def worth (view : W → WalletLike) (balances : KeyValue String BalanceLike) (scope : Scope) (wallets : List W) : ℚ :=
  (wallets.map (usdOf view balances scope)).sum

/-- A group with a wallet always shows a chain. -/
theorem build_chains_ne_nil {key title : String} {members : List W} {chain : Option String} (h : members ≠ []) :
    (build view balances scope key title members chain).chains ≠ [] := by
  obtain ⟨w, hw⟩ := List.exists_mem_of_ne_nil members h
  unfold build
  dsimp only
  by_cases hvalue : (sort (fun a b => b.2 - a.2) (members.foldl (addWallet view balances) [])).map Prod.fst = []
  · rw [if_pos hvalue]
    cases hchain : (view w).chain with
    | SOLANA =>
      rw [if_pos (List.any_eq_true.mpr ⟨w, hw, by simp [hchain]⟩)]
      exact List.cons_ne_nil _ _
    | EVM =>
      rw [if_pos (List.any_eq_true.mpr ⟨w, hw, by simp [hchain]⟩ : (members.any fun w => (view w).chain = .EVM) = true)]
      exact List.append_ne_nil_of_right_ne_nil _ (List.cons_ne_nil _ _)
  · rw [if_neg hvalue]
    exact hvalue

/-- The groups hold the wallets, and are worth what these are. -/
structure Covers (view : W → WalletLike) (balances : KeyValue String BalanceLike) (scope : Scope) (wallets : List W)
    (groups : List (WalletGroup W)) : Prop where
  perm : (groups.flatMap WalletGroup.wallets).Perm wallets
  totals : ∀ g ∈ groups, g.totalUsd = worth view balances scope g.wallets

theorem Covers.sum_totals {wallets : List W} {groups : List (WalletGroup W)}
    (h : Covers view balances scope wallets groups) :
    (groups.map WalletGroup.totalUsd).sum = worth view balances scope wallets := by
  have hflat : ∀ l : List (WalletGroup W), (∀ g ∈ l, g.totalUsd = worth view balances scope g.wallets) →
      (l.map WalletGroup.totalUsd).sum = worth view balances scope (l.flatMap WalletGroup.wallets) := by
    intro l
    induction l with
    | nil => exact fun _ => rfl
    | cons g l ih =>
      intro hl
      rw [List.map_cons, List.sum_cons, ih fun x hx => hl x (List.mem_cons_of_mem g hx), hl g List.mem_cons_self,
        List.flatMap_cons, worth, worth, worth, List.map_append, List.sum_append]
  rw [hflat groups h.totals]
  exact (h.perm.map _).sum_eq

theorem Covers.of_perm {wallets : List W} {groups groups' : List (WalletGroup W)}
    (h : Covers view balances scope wallets groups) (hperm : groups'.Perm groups) :
    Covers view balances scope wallets groups' where
  perm := (hperm.flatMap_right _).trans h.perm
  totals g hg := h.totals g (hperm.mem_iff.mp hg)

/-- The wallets of a set. -/
def members (view : W → WalletLike) (wallets : List W) (name : String) : List W :=
  wallets.filter fun w => setOf view w = name

/-- Alone in its set, or named `Ungrouped`. -/
def IsLoose (view : W → WalletLike) (wallets : List W) (w : W) : Prop :=
  setOf view w = "Ungrouped" ∨ (members view wallets (setOf view w)).length < 2

instance (wallets : List W) (w : W) : Decidable (IsLoose view wallets w) :=
  inferInstanceAs (Decidable (_ ∨ _))

/-- The sets are split into those that are too small or have no name, and the rest. -/
structure Split (view : W → WalletLike) (wallets : List W) (small named : List (String × List W)) : Prop where
  perm : (small ++ named).Perm (KeyValue.groups (setOf view) wallets)
  small : ∀ entry ∈ small, entry.1 = "Ungrouped" ∨ entry.2.length < 2
  named : ∀ entry ∈ named, entry.1 ≠ "Ungrouped" ∧ 2 ≤ entry.2.length

/-- The group that is built of a set with a name. -/
def namedGroup (view : W → WalletLike) (balances : KeyValue String BalanceLike) (scope : Scope)
    (entry : String × List W) : WalletGroup W :=
  build view balances scope ("set:" ++ entry.1) entry.1 entry.2 none

theorem unsorted_set (view : W → WalletLike) (balances : KeyValue String BalanceLike) (scope : Scope)
    (wallets : List W) : ∃ small named, Split view wallets small named ∧
    unsorted view balances scope wallets .set = named.map (namedGroup view balances scope) ++
      buildUnlessEmpty view balances scope LOOSE_KEY "Ungrouped" (small.flatMap Prod.snd) none := by
  obtain ⟨p, hp⟩ : ∃ p : String × List W → Bool,
    p = fun entry => entry.1 = "Ungrouped" || entry.2.length < 2 := ⟨_, rfl⟩
  have hbool : ∀ entry, p entry = true ↔ entry.1 = "Ungrouped" ∨ entry.2.length < 2 := by
    intro entry
    simp [hp]
  refine ⟨(KeyValue.groups (setOf view) wallets).filter p, (KeyValue.groups (setOf view) wallets).filter fun x => !p x,
    ⟨List.filter_append_perm p _, fun entry hentry => ?_, fun entry hentry => ?_⟩, ?_⟩
  · exact (hbool entry).mp (List.mem_filter.mp hentry).2
  · have hnot := (List.mem_filter.mp hentry).2
    rw [Bool.not_eq_true', ← Bool.not_eq_true, hbool, not_or, not_lt] at hnot
    exact hnot
  · subst hp
    simp only [unsorted, List.partition_eq_filter_filter]
    rfl

section Split
variable {wallets : List W} {small named : List (String × List W)}

theorem Split.mem_iff (h : Split view wallets small named) {name : String} {xs : List W} :
    (name, xs) ∈ small ++ named ↔ xs = members view wallets name ∧ xs ≠ [] := by
  rw [h.perm.mem_iff, KeyValue.mem_groups]
  rfl

theorem Split.nodup (h : Split view wallets small named) : (named.map Prod.fst).Nodup := by
  have hall : ((small ++ named).map Prod.fst).Nodup :=
    (h.perm.map Prod.fst).nodup_iff.mpr (KeyValue.nodup_groups wallets)
  rw [List.map_append] at hall
  exact (List.nodup_append.mp hall).2.1

theorem Split.mem_named (h : Split view wallets small named) {name : String} {xs : List W} :
    (name, xs) ∈ named ↔ xs = members view wallets name ∧ name ≠ "Ungrouped" ∧ 2 ≤ xs.length := by
  constructor
  · intro hin
    exact ⟨(h.mem_iff.mp (List.mem_append_right small hin)).1, h.named _ hin⟩
  · rintro ⟨hxs, hname, hlen⟩
    have hne : xs ≠ [] := fun hnil => by simp [hnil] at hlen
    refine (List.mem_append.mp (h.mem_iff.mpr ⟨hxs, hne⟩)).resolve_left fun hin => ?_
    cases h.small _ hin with
    | inl heq => exact hname heq
    | inr hlt => exact absurd hlen (not_le.mpr hlt)

theorem Split.mem_small (h : Split view wallets small named) {w : W} :
    w ∈ small.flatMap Prod.snd ↔ w ∈ wallets ∧ IsLoose view wallets w := by
  rw [List.mem_flatMap]
  constructor
  · rintro ⟨⟨name, xs⟩, hentry, hw⟩
    obtain ⟨rfl, -⟩ := h.mem_iff.mp (List.mem_append_left named hentry)
    obtain ⟨hmem, hname⟩ := List.mem_filter.mp hw
    have hname : setOf view w = name := by simpa using hname
    exact ⟨hmem, by rw [IsLoose, hname]; exact h.small _ hentry⟩
  · rintro ⟨hmem, hloose⟩
    have hw : w ∈ members view wallets (setOf view w) := List.mem_filter.mpr ⟨hmem, by simp⟩
    have hentry := h.mem_iff.mpr ⟨rfl, List.ne_nil_of_mem hw⟩
    refine ⟨_, (List.mem_append.mp hentry).resolve_right fun hin => ?_, hw⟩
    obtain ⟨-, hname, hlen⟩ := h.mem_named.mp hin
    cases hloose with
    | inl heq => exact hname heq
    | inr hlt => exact absurd hlen (not_le.mpr hlt)

end Split

theorem flatMap_buildUnlessEmpty (key title : String) (wallets : List W) (chain : Option String) :
    (buildUnlessEmpty view balances scope key title wallets chain).flatMap WalletGroup.wallets = wallets := by
  unfold buildUnlessEmpty
  cases wallets with
  | nil => rfl
  | cons w ws => exact List.append_nil _

theorem mem_buildUnlessEmpty (key title : String) (wallets : List W) (chain : Option String) :
    ∀ g ∈ buildUnlessEmpty view balances scope key title wallets chain, g.key = key ∧ g.wallets = wallets ∧
      wallets ≠ [] ∧ g.totalUsd = worth view balances scope g.wallets := by
  unfold buildUnlessEmpty
  cases wallets with
  | nil => simp
  | cons w ws =>
    intro g hg
    obtain rfl := List.mem_singleton.mp hg
    exact ⟨rfl, rfl, List.cons_ne_nil w ws, rfl⟩

theorem covers_unsorted (view : W → WalletLike) (balances : KeyValue String BalanceLike) (scope : Scope)
    (mode : GroupMode) (wallets : List W) :
    Covers view balances scope wallets (unsorted view balances scope wallets mode) := by
  cases mode with
  | none =>
    constructor
    · exact List.Perm.of_eq (List.append_nil wallets)
    · intro g hg
      obtain rfl := List.mem_singleton.mp hg
      rfl
  | chain =>
    constructor
    · show (List.flatMap _ (buildUnlessEmpty _ _ _ _ _ _ _ ++ buildUnlessEmpty _ _ _ _ _ _ _)).Perm wallets
      rw [List.flatMap_append, flatMap_buildUnlessEmpty, flatMap_buildUnlessEmpty]
      have hevm : (wallets.filter fun w => (view w).chain = .EVM) =
          wallets.filter fun w => !decide ((view w).chain = .SOLANA) := by
        congr 1
        funext w
        cases (view w).chain <;> rfl
      rw [hevm]
      exact List.filter_append_perm _ wallets
    · intro g hg
      cases List.mem_append.mp hg with
      | inl hg => exact (mem_buildUnlessEmpty _ _ _ _ g hg).2.2.2
      | inr hg => exact (mem_buildUnlessEmpty _ _ _ _ g hg).2.2.2
  | set =>
    obtain ⟨small, named, hsplit, hunsorted⟩ := unsorted_set view balances scope wallets
    rw [hunsorted]
    constructor
    · rw [List.flatMap_append, flatMap_buildUnlessEmpty, List.flatMap_map]
      have hall := (hsplit.perm.flatMap_right Prod.snd).trans (KeyValue.perm_groups wallets)
      rw [List.flatMap_append] at hall
      exact List.perm_append_comm.trans hall
    · intro g hg
      cases List.mem_append.mp hg with
      | inl hg =>
        obtain ⟨entry, -, rfl⟩ := List.mem_map.mp hg
        rfl
      | inr hg => exact (mem_buildUnlessEmpty _ _ _ _ g hg).2.2.2

/-! ## The partition -/

/-- The group of the loose wallets. -/
def LooseGroup (view : W → WalletLike) (mode : GroupMode) (wallets : List W) (g : WalletGroup W) : Prop :=
  mode = .set ∧ ∀ w ∈ g.wallets, IsLoose view wallets w

/-- The group of the loose wallets, if there is one, comes behind all the others, and these are by falling total. -/
def LooseLast (view : W → WalletLike) (mode : GroupMode) (wallets : List W) (groups : List (WalletGroup W)) : Prop :=
  ∃ rest last : List (WalletGroup W), groups = rest ++ last ∧ last.length ≤ 1 ∧
    (∀ g ∈ rest, ¬ LooseGroup view mode wallets g) ∧ (∀ g ∈ last, LooseGroup view mode wallets g) ∧ Falling rest

/-- Every wallet is in one group, no two groups have one key, the totals add up, and the group of the loose wallets
comes last, behind groups by falling total. -/
structure Partitioned (view : W → WalletLike) (balances : KeyValue String BalanceLike) (scope : Scope)
    (mode : GroupMode) (wallets : List W) (groups : List (WalletGroup W)) : Prop where
  perm : (groups.flatMap WalletGroup.wallets).Perm wallets
  keys : (groups.map WalletGroup.key).Nodup
  totals : (groups.map WalletGroup.totalUsd).sum = worth view balances scope wallets
  order : LooseLast view mode wallets groups

/-- Where two wallets or more make up a set with the name of the loose group's key, no wallet is loose, and no other set
is worth less than that one. -/
def KeyUnshared (view : W → WalletLike) (balances : KeyValue String BalanceLike) (scope : Scope) (mode : GroupMode)
    (wallets : List W) : Prop :=
  mode = .set → 2 ≤ (members view wallets "__loose").length → ∀ w ∈ wallets, ¬ IsLoose view wallets w ∧
    worth view balances scope (members view wallets "__loose") ≤
      worth view balances scope (members view wallets (setOf view w))

section Sets
variable {wallets : List W} {small named : List (String × List W)}

theorem key_eq_iff (name : String) : "set:" ++ name = LOOSE_KEY ↔ name = "__loose" := by
  have hkey : LOOSE_KEY = "set:" ++ "__loose" := by decide +kernel
  rw [hkey, String.append_right_inj]

theorem Split.nodup_keys (h : Split view wallets small named) :
    ((named.map (namedGroup view balances scope)).map WalletGroup.key).Nodup := by
  rw [List.map_map]
  refine List.pairwise_map.mpr ((List.pairwise_map.mp h.nodup).imp fun hne heq => hne ?_)
  exact (String.append_right_inj "set:").mp heq

theorem Split.exists_wallet (h : Split view wallets small named) {name : String} {xs : List W}
    (hentry : (name, xs) ∈ named) : ∃ w ∈ xs, w ∈ wallets ∧ setOf view w = name := by
  obtain ⟨rfl, -, hlen⟩ := h.mem_named.mp hentry
  obtain ⟨w, hw⟩ := List.exists_mem_of_length_pos (show 0 < (members view wallets name).length by omega)
  exact ⟨w, hw, List.mem_of_mem_filter hw, by simpa using (List.mem_filter.mp hw).2⟩

/-- A group of a set with a name has no loose wallet. -/
theorem Split.not_loose (h : Split view wallets small named) {g : WalletGroup W}
    (hg : g ∈ named.map (namedGroup view balances scope)) : ¬ LooseGroup view .set wallets g := by
  obtain ⟨⟨name, xs⟩, hentry, rfl⟩ := List.mem_map.mp hg
  obtain ⟨w, hw, -, hset⟩ := h.exists_wallet hentry
  obtain ⟨rfl, hname, hlen⟩ := h.mem_named.mp hentry
  rintro ⟨-, hloose⟩
  cases hloose w hw with
  | inl heq => exact hname (hset ▸ heq)
  | inr hlt => exact absurd hlen (not_le.mpr (hset ▸ hlt))

/-- The loose key is that of the loose group, or of the set with that name. -/
theorem Split.of_key (h : Split view wallets small named) {g : WalletGroup W}
    (hg : g ∈ named.map (namedGroup view balances scope)) (hkey : g.key = LOOSE_KEY) :
    2 ≤ (members view wallets "__loose").length ∧
      g.totalUsd = worth view balances scope (members view wallets "__loose") := by
  obtain ⟨⟨name, xs⟩, hentry, rfl⟩ := List.mem_map.mp hg
  obtain ⟨rfl, -, hlen⟩ := h.mem_named.mp hentry
  obtain rfl := (key_eq_iff name).mp hkey
  exact ⟨hlen, rfl⟩

theorem Split.total_named (h : Split view wallets small named) {g : WalletGroup W}
    (hg : g ∈ named.map (namedGroup view balances scope)) :
    ∃ w ∈ wallets, g.totalUsd = worth view balances scope (members view wallets (setOf view w)) := by
  obtain ⟨⟨name, xs⟩, hentry, rfl⟩ := List.mem_map.mp hg
  obtain ⟨w, -, hin, rfl⟩ := h.exists_wallet hentry
  obtain ⟨rfl, -⟩ := h.mem_named.mp hentry
  exact ⟨w, hin, rfl⟩

/-- The group of a wallet that is not loose. -/
theorem Split.named_of_not_loose (h : Split view wallets small named) (balances : KeyValue String BalanceLike)
    (scope : Scope) {w : W} (hloose : ¬ IsLoose view wallets w) :
    namedGroup view balances scope (setOf view w, members view wallets (setOf view w)) ∈
      named.map (namedGroup view balances scope) := by
  rw [IsLoose, not_or, not_lt] at hloose
  exact List.mem_map.mpr ⟨_, h.mem_named.mpr ⟨rfl, hloose⟩, rfl⟩

/-- The keys are distinct where no two groups have the loose key. -/
theorem Split.nodup_keys_iff (h : Split view wallets small named) :
    ((named.map (namedGroup view balances scope) ++
      buildUnlessEmpty view balances scope LOOSE_KEY "Ungrouped" (small.flatMap Prod.snd) none).map
        WalletGroup.key).Nodup ↔
      small.flatMap Prod.snd = [] ∨ (members view wallets "__loose").length < 2 := by
  by_cases hnil : small.flatMap Prod.snd = []
  · rw [hnil, buildUnlessEmpty, if_pos List.isEmpty_nil, List.append_nil]
    exact iff_of_true h.nodup_keys (.inl rfl)
  · rw [buildUnlessEmpty, if_neg (by simpa using hnil), List.map_append, or_iff_right hnil, List.map_singleton,
      ← List.concat_eq_append, List.nodup_concat, and_iff_left h.nodup_keys, build_key, ← not_le, not_iff_not]
    constructor
    · intro hmem
      obtain ⟨g, hg, hkey⟩ := List.mem_map.mp hmem
      exact (h.of_key hg hkey).1
    · intro hlen
      have hentry := h.mem_named.mpr ⟨rfl, (by decide : "__loose" ≠ "Ungrouped"), hlen⟩
      exact List.mem_map.mpr ⟨_, List.mem_map.mpr ⟨_, hentry, rfl⟩, (key_eq_iff "__loose").mpr rfl⟩

end Sets

/-- Outside of the sets the keys are fixed. -/
theorem keys_unsorted (view : W → WalletLike) (balances : KeyValue String BalanceLike) (scope : Scope)
    {mode : GroupMode} (h : mode ≠ .set) (wallets : List W) :
    ((unsorted view balances scope wallets mode).map WalletGroup.key).Sublist ["all"] ∨
      ((unsorted view balances scope wallets mode).map WalletGroup.key).Sublist ["chain:solana", "chain:evm"] := by
  have hone : ∀ (key title : String) (xs : List W) (chain : Option String),
      ((buildUnlessEmpty view balances scope key title xs chain).map WalletGroup.key).Sublist [key] := by
    intro key title xs chain
    unfold buildUnlessEmpty
    cases xs with
    | nil => exact List.nil_sublist _
    | cons w ws => exact List.Sublist.refl _
  cases mode with
  | none => exact .inl (List.Sublist.refl _)
  | chain =>
    right
    unfold unsorted
    rw [List.map_append]
    exact (hone _ _ _ _).append (hone _ _ _ _)
  | set => exact absurd rfl h

/-- With distinct keys one group at most has the loose key, and it is the last. -/
theorem split_of_nodup (collator : Collator) {l : List (WalletGroup W)} (h : (l.map WalletGroup.key).Nodup) :
    ∃ pre post, sort (compareGroups collator) l = pre ++ post ∧ post.length ≤ 1 ∧
      (∀ g ∈ pre, g.key ≠ LOOSE_KEY) ∧ (∀ g ∈ post, g.key = LOOSE_KEY) ∧ Falling pre := by
  obtain ⟨pre, post, hsort, hpre, hpost, hfalling⟩ := split_sorted collator l
  refine ⟨pre, post, hsort, ?_, hpre, hpost, hfalling⟩
  have hkeys : ((sort (compareGroups collator) l).map WalletGroup.key).Nodup :=
    ((sort_perm _ l).map WalletGroup.key).nodup_iff.mpr h
  rw [hsort, List.map_append] at hkeys
  match post, hpost, (List.nodup_append.mp hkeys).2.1 with
  | [], _, _ => exact Nat.zero_le 1
  | [g], _, _ => exact Nat.le_refl 1
  | g :: g' :: rest, hpost, hnodup =>
    have hg := hpost g List.mem_cons_self
    have hg' := hpost g' (List.mem_cons_of_mem g List.mem_cons_self)
    exact absurd hnodup (by simp [hg, hg'])

/-- Outside of the sets the groups are in order. -/
theorem partitioned_of_ne_set {mode : GroupMode} (h : mode ≠ .set) (wallets : List W) :
    Partitioned view balances scope mode wallets
      (sort (compareGroups collator) (unsorted view balances scope wallets mode)) := by
  have hcovers := (covers_unsorted view balances scope mode wallets).of_perm
    (sort_perm (compareGroups collator) _)
  have hkeys : ((unsorted view balances scope wallets mode).map WalletGroup.key).Nodup ∧
      LOOSE_KEY ∉ (unsorted view balances scope wallets mode).map WalletGroup.key := by
    cases keys_unsorted view balances scope h wallets with
    | inl hsub => exact ⟨hsub.nodup (by decide), fun hmem => absurd (hsub.mem hmem) (by decide)⟩
    | inr hsub => exact ⟨hsub.nodup (by decide), fun hmem => absurd (hsub.mem hmem) (by decide)⟩
  obtain ⟨pre, post, hsort, -, -, hpost, hfalling⟩ := split_of_nodup collator hkeys.1
  have hnone : post = [] := by
    apply List.eq_nil_iff_forall_not_mem.mpr
    intro g hg
    have hmem : g ∈ sort (compareGroups collator) (unsorted view balances scope wallets mode) :=
      hsort ▸ List.mem_append_right pre hg
    exact hkeys.2 (List.mem_map.mpr ⟨g, mem_sort.mp hmem, hpost g hg⟩)
  exact
    { perm := hcovers.perm
      keys := ((sort_perm _ _).map WalletGroup.key).nodup_iff.mpr hkeys.1
      totals := hcovers.sum_totals
      order := ⟨pre, [], by rw [hsort, hnone], Nat.zero_le 1, fun g _ hg => h hg.1, by simp, hfalling⟩ }

section Sets
variable {wallets : List W} {small named : List (String × List W)}

theorem Split.loose_of_small (h : Split view wallets small named) {g : WalletGroup W}
    (hg : g ∈ buildUnlessEmpty view balances scope LOOSE_KEY "Ungrouped" (small.flatMap Prod.snd) none) :
    LooseGroup view .set wallets g := by
  obtain ⟨-, hwallets, -⟩ := mem_buildUnlessEmpty _ _ _ _ g hg
  refine ⟨rfl, fun w hw => ?_⟩
  rw [hwallets] at hw
  exact (h.mem_small.mp hw).2

/-- Where the key is not shared the groups of the sets are in order. -/
theorem Split.order_of_unshared (h : Split view wallets small named)
    (hkey : KeyUnshared view balances scope .set wallets) {pre post : List (WalletGroup W)}
    (hmem : ∀ g ∈ pre ++ post, g ∈ named.map (namedGroup view balances scope) ∨
      g ∈ buildUnlessEmpty view balances scope LOOSE_KEY "Ungrouped" (small.flatMap Prod.snd) none)
    (hlen : post.length ≤ 1) (hpre : ∀ g ∈ pre, g.key ≠ LOOSE_KEY) (hpost : ∀ g ∈ post, g.key = LOOSE_KEY)
    (hfalling : Falling pre) : LooseLast view .set wallets (pre ++ post) := by
  have hnamed : ∀ g ∈ pre, g ∈ named.map (namedGroup view balances scope) := by
    intro g hg
    refine (hmem g (List.mem_append_left post hg)).resolve_right fun hsmall => hpre g hg ?_
    exact (mem_buildUnlessEmpty _ _ _ _ g hsmall).1
  match post, hlen, hpost with
  | [], _, _ => exact ⟨pre, [], rfl, Nat.zero_le 1, fun g hg => h.not_loose (hnamed g hg), by simp, hfalling⟩
  | [g], _, hpost =>
    cases hmem g (List.mem_append_right pre List.mem_cons_self) with
    | inr hsmall =>
      refine ⟨pre, [g], rfl, Nat.le_refl 1, fun x hx => h.not_loose (hnamed x hx), fun x hx => ?_, hfalling⟩
      rw [List.mem_singleton.mp hx]
      exact h.loose_of_small hsmall
    | inl hin =>
      -- The set has the loose key, so it is worth least.
      obtain ⟨htwo, htotal⟩ := h.of_key hin (hpost g List.mem_cons_self)
      refine ⟨pre ++ [g], [], by rw [List.append_nil], Nat.zero_le 1, fun x hx => ?_, by simp, ?_⟩
      · cases List.mem_append.mp hx with
        | inl hx => exact h.not_loose (hnamed x hx)
        | inr hx => exact h.not_loose (List.mem_singleton.mp hx ▸ hin)
      · refine List.pairwise_append.mpr ⟨hfalling, List.pairwise_singleton _ g, fun x hx y hy => ?_⟩
        obtain ⟨w, hw, hworth⟩ := h.total_named (hnamed x hx)
        rw [List.mem_singleton.mp hy, htotal, hworth]
        exact (hkey rfl htwo w hw).2

/-- Where the groups are in order, a set with the loose key is alone with it, and worth least. -/
theorem Split.unshared_of_order (h : Split view wallets small named) {groups : List (WalletGroup W)}
    (hmem : ∀ g, g ∈ groups ↔ g ∈ named.map (namedGroup view balances scope) ∨
      g ∈ buildUnlessEmpty view balances scope LOOSE_KEY "Ungrouped" (small.flatMap Prod.snd) none)
    (hkeys : small.flatMap Prod.snd = [] ∨ (members view wallets "__loose").length < 2)
    (horder : LooseLast view .set wallets groups)
    (hsplit : ∃ pre post, groups = pre ++ post ∧ (∀ g ∈ pre, g.key ≠ LOOSE_KEY) ∧ ∀ g ∈ post, g.key = LOOSE_KEY) :
    KeyUnshared view balances scope .set wallets := by
  intro _ htwo
  have hnil := hkeys.resolve_right (not_lt.mpr htwo)
  have hall : ∀ g ∈ groups, g ∈ named.map (namedGroup view balances scope) := by
    intro g hg
    refine ((hmem g).mp hg).resolve_right fun hsmall => ?_
    rw [hnil] at hsmall
    cases hsmall
  have hloose : ∀ w ∈ wallets, ¬ IsLoose view wallets w := by
    intro w hw hin
    have hsmall := h.mem_small.mpr ⟨hw, hin⟩
    rw [hnil] at hsmall
    cases hsmall
  have hfalling : Falling groups := by
    obtain ⟨rest, last, rfl, -, -, hlast, hfalling⟩ := horder
    have hnone : last = [] := by
      apply List.eq_nil_iff_forall_not_mem.mpr
      intro g hg
      exact h.not_loose (hall g (List.mem_append_right rest hg)) (hlast g hg)
    rwa [hnone, List.append_nil]
  obtain ⟨pre, post, rfl, hpre, hpost⟩ := hsplit
  have hentry := h.mem_named.mpr ⟨rfl, (by decide : "__loose" ≠ "Ungrouped"), htwo⟩
  have hlast : namedGroup view balances scope ("__loose", members view wallets "__loose") ∈ post := by
    have hin := (hmem _).mpr (.inl (List.mem_map.mpr ⟨_, hentry, rfl⟩))
    exact (List.mem_append.mp hin).resolve_left fun hpreIn => hpre _ hpreIn ((key_eq_iff "__loose").mpr rfl)
  intro w hw
  refine ⟨hloose w hw, ?_⟩
  have hgroup := (hmem _).mpr (.inl (h.named_of_not_loose balances scope (hloose w hw)))
  cases List.mem_append.mp hgroup with
  | inl hin => exact (List.pairwise_append.mp hfalling).2.2 _ hin _ hlast
  | inr hin =>
    have hname := (key_eq_iff (setOf view w)).mp (hpost _ hin)
    rw [hname]

end Sets

/-- The wallet groups are a partition, sorted with the loose wallets last, exactly where the key of the loose group is
not shared with a set that a label names. -/
theorem partitioned_iff (view : W → WalletLike) (balances : KeyValue String BalanceLike) (scope : Scope)
    (collator : Collator) (mode : GroupMode) (wallets : List W) :
    Partitioned view balances scope mode wallets (groupWallets view balances scope collator mode wallets) ↔
      KeyUnshared view balances scope mode wallets := by
  cases wallets with
  | nil =>
    refine iff_of_true ⟨List.Perm.refl [], List.nodup_nil, rfl, [], [], rfl, Nat.zero_le 1, by simp, by simp,
      List.Pairwise.nil⟩ fun _ _ w hw => ?_
    cases hw
  | cons w ws =>
    show Partitioned view balances scope mode (w :: ws)
      (sort (compareGroups collator) (unsorted view balances scope (w :: ws) mode)) ↔ _
    by_cases hmode : mode = .set
    · subst hmode
      obtain ⟨small, named, hsplit, hunsorted⟩ := unsorted_set view balances scope (w :: ws)
      have hcovers := (covers_unsorted view balances scope .set (w :: ws)).of_perm
        (sort_perm (compareGroups collator) _)
      have hnodup : ((sort (compareGroups collator) (unsorted view balances scope (w :: ws) .set)).map
          WalletGroup.key).Nodup ↔ _ :=
        ((sort_perm _ _).map WalletGroup.key).nodup_iff.trans (hunsorted ▸ hsplit.nodup_keys_iff)
      have hmem : ∀ g, g ∈ sort (compareGroups collator) (unsorted view balances scope (w :: ws) .set) ↔
          g ∈ named.map (namedGroup view balances scope) ∨
            g ∈ buildUnlessEmpty view balances scope LOOSE_KEY "Ungrouped" (small.flatMap Prod.snd) none := by
        intro g
        rw [mem_sort, hunsorted, List.mem_append]
      constructor
      · intro hpartitioned
        obtain ⟨pre, post, hsort, hpre, hpost, -⟩ := split_sorted collator
          (unsorted view balances scope (w :: ws) .set)
        exact hsplit.unshared_of_order hmem (hnodup.mp hpartitioned.keys) hpartitioned.order
          ⟨pre, post, hsort, hpre, hpost⟩
      · intro hkey
        have hkeys : small.flatMap Prod.snd = [] ∨ (members view (w :: ws) "__loose").length < 2 := by
          by_cases hnil : small.flatMap Prod.snd = []
          · exact .inl hnil
          · right
            obtain ⟨x, hx⟩ := List.exists_mem_of_ne_nil _ hnil
            obtain ⟨hin, hloose⟩ := hsplit.mem_small.mp hx
            by_contra htwo
            exact (hkey rfl (not_lt.mp htwo) x hin).1 hloose
        obtain ⟨pre, post, hsort, hlen, hpre, hpost, hfalling⟩ := split_of_nodup collator
          (hunsorted ▸ hsplit.nodup_keys_iff.mpr hkeys)
        refine ⟨hcovers.perm, hnodup.mpr hkeys, hcovers.sum_totals, ?_⟩
        rw [hsort] at hmem ⊢
        exact hsplit.order_of_unshared hkey (fun g hg => (hmem g).mp hg) hlen hpre hpost hfalling
    · exact iff_of_true (partitioned_of_ne_set hmode (w :: ws)) fun h => absurd h hmode

end Groups

/-! ## A name that is the key -/

/-- The order of the code points, for `localeCompare` on plain texts. -/
def codePointCollator : Collator where
  localeCompare a b := if a < b then -1 else if b < a then 1 else 0
  consistent := by
    have hiff : ∀ a b : String, (0 : ℚ) ≤ (if b < a then -1 else if a < b then 1 else 0) ↔ a ≤ b := by
      intro a b
      by_cases hlt : b < a
      · rw [if_pos hlt]
        exact iff_of_false (by decide) (not_le.mpr hlt)
      · by_cases hgt : a < b
        · simp [hlt, hgt, le_of_lt hgt]
        · simp [hlt, hgt, not_lt.mp hlt]
    constructor
    · intro a b
      rw [hiff, hiff]
      exact le_total a b
    · intro a b c hab hbc
      rw [hiff] at hab hbc ⊢
      exact hab.trans hbc

def labelled (id label : String) : WalletLike := ⟨id, .SOLANA, some label, none, none⟩

/-- Two wallets in a set that is named `__loose`, and a loose one. -/
def sharedKey : List WalletLike := [labelled "w1" "__loose 1", labelled "w2" "__loose 2", labelled "w3" "Treasury"]

def allNetworks : Scope := ⟨⟨"all", by decide⟩, true⟩

theorem sharedKey_twice : (sharedKey.map WalletLike.id).Nodup ∧
    ¬ Partitioned id [] allNetworks .set sharedKey
      (groupWallets id [] allNetworks codePointCollator .set sharedKey) := by
  refine ⟨by decide, fun h => ?_⟩
  have hperm : (groupWallets id [] allNetworks codePointCollator .set sharedKey).Perm
      (unsorted id [] allNetworks sharedKey .set) := sort_perm _ _
  have hkeys : (unsorted id [] allNetworks sharedKey .set).map WalletGroup.key = [LOOSE_KEY, LOOSE_KEY] := by
    decide +kernel
  have hnodup := (hperm.map WalletGroup.key).nodup_iff.mp h.keys
  rw [hkeys] at hnodup
  exact absurd hnodup (by simp)

end SuperAi.Wallets
