import SuperAi.Intent.Dsl
import SuperAi.Intent.RuleOrder

/-! # Symbol patterns

A pattern is put into upper case when its rule is stored, and compiled when the rule meets a symbol. It keeps its
meaning exactly if the pattern in upper case is one, and matches what the given pattern matches (`keepsMeaning_iff`).
`upper` stands for `toUpperCase` on all of Unicode, and `compile` for `new RegExp(p, 'i')` with its `test`, none where
it throws.
-/
namespace SuperAi.Intent
open SuperAi.Foundations SuperAi.Approvals
set_option autoImplicit false

abbrev Compile := String → Option (String → Bool)

/-- `new RegExp(pattern, 'i').test(symbol)`. -/
def regExpTest (compile : Compile) : RegExpTest := fun pattern symbol =>
  match compile pattern with
  | some test => .ok (test symbol)
  | none => .error ("Invalid regular expression: /" ++ pattern ++ "/i")

/-- The block rule of a request. -/
def blockRule (upper : String → String) (r : JsonValue) : BlockRule :=
  { validateBlock r with
    chain := (str (property r "chain")).map upper
    symbol_pattern := (str (property r "symbol_pattern")).map upper }

theorem validate_block {fields : List (String × JsonValue)}
    (h : property (.obj fields) "kind" = some (.str "block")) :
    validateIntentRuleDsl (.obj fields) = .ok (.block (blockRule String.toUpper (.obj fields))) := by
  unfold validateIntentRuleDsl
  rw [h]
  rfl

/-- No other field of the rule names the intent. -/
structure OnlyPattern (dsl : BlockRule) (intent : TradeIntent) (info : CandidateMeta) : Prop where
  token : sameText dsl.token intent.tokenOut = false
  asset : (given info.assetClass).any (sameText dsl.asset_class) = false
  chain : (given dsl.chain).any (fun chain => intent.chain.toUpper == chain.toUpper) = false

/-- With its rule in the list the check throws at no candidate, unless another rule throws at it; and where the pattern
is one, its rule matches a symbol exactly if the pattern does. -/
structure KeepsMeaning (upper : String → String) (compile : Compile) (raw : JsonValue) (pattern : String) : Prop where
  no_throw : ∀ (now : UtcTime) (candidate : EnforcerCandidate) (rules : List UserIntentRule),
    (∃ r ∈ rules, r.rule = .block (blockRule upper raw)) →
    (∀ r ∈ rules, r.rule ≠ .block (blockRule upper raw) → ¬ Throws (regExpTest compile) candidate r) →
    ∃ decision, check (regExpTest compile) now candidate rules = .ok decision
  same : ∀ test, compile pattern = some test → ∀ (intent : TradeIntent) (info : CandidateMeta) (symbol : String),
    OnlyPattern (blockRule upper raw) intent info → given info.symbol = some symbol →
    blockMatches (regExpTest compile) (blockRule upper raw) intent info = .ok (test symbol)

/-! ## The rule against a candidate -/

variable {upper : String → String} {compile : Compile} {raw : JsonValue} {pattern : String}

theorem blockMatches_of_onlyPattern {regExp : RegExpTest} {dsl : BlockRule} {intent : TradeIntent}
    {info : CandidateMeta} (h : OnlyPattern dsl intent info) :
    blockMatches regExp dsl intent info =
      match given dsl.symbol_pattern, given info.symbol with
      | some pattern, some symbol => regExp pattern symbol
      | _, _ => .ok false := by
  unfold blockMatches
  rw [h.token, h.asset, h.chain]
  cases given dsl.symbol_pattern with
  | none => rfl
  | some pattern => rfl

theorem given_symbol_pattern (hraw : property raw "symbol_pattern" = some (.str pattern))
    (hupper : ∀ s, s ≠ "" → upper s ≠ "") :
    given (blockRule upper raw).symbol_pattern = if pattern = "" then none else some (upper pattern) := by
  have hfield : (blockRule upper raw).symbol_pattern = (if pattern = "" then none else some pattern).map upper := by
    rw [blockRule, hraw, str]
  rw [hfield]
  by_cases hempty : pattern = ""
  · rw [if_pos hempty, if_pos hempty]
    rfl
  · rw [if_neg hempty, if_neg hempty, given, Option.map_some, Option.filter_some_pos]
    simpa using hupper pattern hempty

/-- There are intents that only the pattern can name. -/
theorem exists_onlyPattern (dsl : BlockRule) (symbol : String) :
    ∃ intent info, OnlyPattern dsl intent info ∧ info.symbol = some symbol := by
  have hlonger : ∀ (f : Char → Char) (s : String), ((s ++ "x").map f == s.map f) = false := by
    intro f s
    rw [beq_eq_false_iff_ne]
    intro heq
    have hlength := congrArg String.length heq
    rw [String.length_map, String.length_map, String.length_append] at hlength
    exact absurd hlength (by simp)
  have hmiss : ∀ (f : Char → Char) (field : Option String),
      (given field).any (fun wanted => (field.getD "" ++ "x").map f == wanted.map f) = false := by
    intro f field
    cases hgiven : given field with
    | none => rfl
    | some wanted =>
      rw [given, Option.filter_eq_some_iff] at hgiven
      rw [hgiven.1]
      exact hlonger f wanted
  refine ⟨⟨dsl.chain.getD "" ++ "x", "", dsl.token.getD "" ++ "x", "", 0, 0, "", none⟩, ⟨none, some symbol, none, none,
    none, false⟩, ⟨?_, rfl, ?_⟩, rfl⟩
  · exact hmiss Char.toLower dsl.token
  · exact hmiss Char.toUpper dsl.chain

theorem check_ok_of_not_throws {regExp : RegExpTest} {now : UtcTime} {candidate : EnforcerCandidate}
    {rules : List UserIntentRule} (h : ∀ r ∈ rules, ¬ Throws regExp candidate r) :
    ∃ decision, check regExp now candidate rules = .ok decision := by
  have hsome : (outcome candidate (check regExp now candidate rules)).isSome = true := by
    by_cases haccepted : ∃ s, enforce regExp now candidate rules = .ok s
    · obtain ⟨s, hs⟩ := haccepted
      rw [outcome_of_ok hs]
      rfl
    · rw [outcome_of_not_accepted h fun s hs => haccepted ⟨s, hs⟩]
      rfl
  cases hcheck : check regExp now candidate rules with
  | ok decision => exact ⟨decision, rfl⟩
  | error error =>
    rw [hcheck] at hsome
    cases hsome

theorem check_throws_alone {regExp : RegExpTest} {now : UtcTime} {candidate : EnforcerCandidate} {r : UserIntentRule}
    (h : Throws regExp candidate r) {decision : EnforcerDecision} :
    check regExp now candidate [r] ≠ .ok decision := by
  intro hok
  have hhits : ∀ r' ∈ [r], ¬ Hits regExp candidate r' := by
    intro r' hr' hhits
    obtain rfl := List.mem_singleton.mp hr'
    obtain ⟨dsl, error, hrule, hmatch⟩ := h
    obtain ⟨dsl', hrule', hmatch'⟩ := hhits
    obtain rfl : dsl = dsl' := by simpa using hrule.symm.trans hrule'
    rw [hmatch] at hmatch'
    cases hmatch'
  have hnone : outcome candidate (check regExp now candidate [r]) = none :=
    outcome_of_throws ⟨r, List.mem_singleton_self r, h⟩ hhits
  rw [hok] at hnone
  cases hnone

/-! ## The pattern in upper case -/

theorem throws_iff {candidate : EnforcerCandidate} {r : UserIntentRule} {dsl : BlockRule} (hr : r.rule = .block dsl) :
    Throws (regExpTest compile) candidate r ↔
      ∃ error, blockMatches (regExpTest compile) dsl candidate.intent candidate.info = .error error := by
  constructor
  · rintro ⟨dsl', error, hrule, hmatch⟩
    obtain rfl : dsl = dsl' := by simpa using hr.symm.trans hrule
    exact ⟨error, hmatch⟩
  · rintro ⟨error, hmatch⟩
    exact ⟨dsl, error, hr, hmatch⟩

/-- A rule whose stored pattern is one never throws. -/
theorem blockMatches_ok {dsl : BlockRule} (h : ∀ p, given dsl.symbol_pattern = some p → (compile p).isSome = true)
    (intent : TradeIntent) (info : CandidateMeta) : ∃ hit, blockMatches (regExpTest compile) dsl intent info = .ok hit := by
  unfold blockMatches
  split
  · exact ⟨true, rfl⟩
  · split
    · exact ⟨true, rfl⟩
    · split
      · exact ⟨true, rfl⟩
      · split
        · rename_i p symbol hp _
          obtain ⟨test, htest⟩ := Option.isSome_iff_exists.mp (h p hp)
          exact ⟨test symbol, by rw [regExpTest, htest]⟩
        · exact ⟨false, rfl⟩

theorem given_symbol {symbol : String} (h : symbol ≠ "") : given (some symbol) = some symbol := by
  rw [given, Option.filter_some_pos]
  simpa using h

section
variable (hraw : property raw "symbol_pattern" = some (.str pattern)) (hupper : ∀ s, s ≠ "" → upper s ≠ "")

include hraw hupper

/-- What the rule does with a symbol, the test of the stored pattern tells. -/
theorem blockMatches_symbol (hne : pattern ≠ "") {intent : TradeIntent} {info : CandidateMeta} {symbol : String}
    (honly : OnlyPattern (blockRule upper raw) intent info) (hinfo : given info.symbol = some symbol) :
    blockMatches (regExpTest compile) (blockRule upper raw) intent info = regExpTest compile (upper pattern) symbol := by
  rw [blockMatches_of_onlyPattern honly, given_symbol_pattern hraw hupper, if_neg hne, hinfo]

theorem stored_of_keepsMeaning (hne : pattern ≠ "") (h : KeepsMeaning upper compile raw pattern) :
    ∃ stored, compile (upper pattern) = some stored ∧
      ∀ test, compile pattern = some test → ∀ symbol, symbol ≠ "" → stored symbol = test symbol := by
  cases hstored : compile (upper pattern) with
  | none =>
    -- alone in its list, the rule throws at a candidate that has a symbol and is not named otherwise
    obtain ⟨intent, info, honly, hinfo⟩ := exists_onlyPattern (blockRule upper raw) "A"
    have hgiven : given info.symbol = some "A" := by rw [hinfo, given_symbol (by decide)]
    have hthrows : Throws (regExpTest compile) ⟨intent, info, {}⟩ ⟨"r", "text", .block (blockRule upper raw)⟩ := by
      refine (throws_iff rfl).mpr ⟨"Invalid regular expression: /" ++ upper pattern ++ "/i", ?_⟩
      rw [blockMatches_symbol hraw hupper hne honly hgiven]
      simp only [regExpTest, hstored]
    obtain ⟨decision, hdecision⟩ := h.no_throw ⟨0, 0⟩ ⟨intent, info, {}⟩
      [⟨"r", "text", .block (blockRule upper raw)⟩] ⟨_, List.mem_singleton_self _, rfl⟩ (by
        intro r hr hother
        obtain rfl := List.mem_singleton.mp hr
        exact absurd rfl hother)
    exact absurd hdecision (check_throws_alone hthrows)
  | some stored =>
    refine ⟨stored, rfl, ?_⟩
    intro test htest symbol hsymbol
    obtain ⟨intent, info, honly, hinfo⟩ := exists_onlyPattern (blockRule upper raw) symbol
    have hgiven : given info.symbol = some symbol := by rw [hinfo, given_symbol hsymbol]
    have hmatch := h.same test htest intent info symbol honly hgiven
    rw [blockMatches_symbol hraw hupper hne honly hgiven] at hmatch
    simp only [regExpTest, hstored] at hmatch
    exact Except.ok.inj hmatch

theorem keepsMeaning_of_stored (hne : pattern ≠ "") {stored : String → Bool}
    (hstored : compile (upper pattern) = some stored)
    (hsame : ∀ test, compile pattern = some test → ∀ symbol, symbol ≠ "" → stored symbol = test symbol) :
    KeepsMeaning upper compile raw pattern := by
  refine ⟨?_, ?_⟩
  · intro now candidate rules _ hothers
    apply check_ok_of_not_throws
    intro r hr hthrows
    by_cases hrule : r.rule = .block (blockRule upper raw)
    · obtain ⟨error, herror⟩ := (throws_iff hrule).mp hthrows
      have hpattern : ∀ p, given (blockRule upper raw).symbol_pattern = some p → (compile p).isSome = true := by
        intro p hp
        rw [given_symbol_pattern hraw hupper, if_neg hne] at hp
        rw [← Option.some.inj hp, hstored]
        rfl
      obtain ⟨hit, hhit⟩ := blockMatches_ok hpattern candidate.intent candidate.info
      rw [hhit] at herror
      cases herror
    · exact hothers r hr hrule hthrows
  · intro test htest intent info symbol honly hinfo
    have hsymbol : symbol ≠ "" := by
      rw [given, Option.filter_eq_some_iff] at hinfo
      simpa using hinfo.2
    rw [blockMatches_symbol hraw hupper hne honly hinfo]
    simp only [regExpTest, hstored]
    rw [hsame test htest symbol hsymbol]

/-- A rule with an empty pattern names no symbol. -/
theorem not_keepsMeaning_empty (hempty : ∃ test, compile "" = some test ∧ test "A" = true) (h : pattern = "") :
    ¬ KeepsMeaning upper compile raw pattern := by
  intro hkeeps
  obtain ⟨test, htest, hall⟩ := hempty
  obtain ⟨intent, info, honly, hinfo⟩ := exists_onlyPattern (blockRule upper raw) "A"
  have hgiven : given info.symbol = some "A" := by rw [hinfo, given_symbol (by decide)]
  have hmatch := hkeeps.same test (h ▸ htest) intent info "A" honly hgiven
  rw [blockMatches_of_onlyPattern honly, given_symbol_pattern hraw hupper, if_pos h, hall] at hmatch
  cases hmatch

/-- **Symbol patterns.** A pattern keeps its meaning exactly if it is not empty, its upper case is a pattern, and the
two match the same symbols where the given one is a pattern. -/
theorem keepsMeaning_iff (hempty : ∃ test, compile "" = some test ∧ test "A" = true) :
    KeepsMeaning upper compile raw pattern ↔ pattern ≠ "" ∧ ∃ stored, compile (upper pattern) = some stored ∧
      ∀ test, compile pattern = some test → ∀ symbol, symbol ≠ "" → stored symbol = test symbol := by
  constructor
  · intro h
    have hne : pattern ≠ "" := fun heq => not_keepsMeaning_empty hraw hupper hempty heq h
    exact ⟨hne, stored_of_keepsMeaning hraw hupper hne h⟩
  · rintro ⟨hne, stored, hstored, hsame⟩
    exact keepsMeaning_of_stored hraw hupper hne hstored hsame

end

/-! ## Patterns that stand for themselves -/

/-- The characters that mean something else in a pattern. -/
def syntaxChars : List Char := ['^', '$', '\\', '.', '*', '+', '?', '(', ')', '[', ']', '\x7b', '\x7d', '|']

def isLiteral (pattern : String) : Bool :=
  pattern.toList.all fun c => decide (c.toNat < 128) && !syntaxChars.contains c

/-- The text is found in the symbol, in upper or lower case. -/
def occursIn (text symbol : String) : Bool :=
  decide (text.toList.map Char.toUpper <:+: symbol.toList.map Char.toUpper)

/-- What `toUpperCase` and `RegExp` do with a pattern of ASCII letters that stand for themselves. -/
structure OnLiterals (upper : String → String) (compile : Compile) : Prop where
  upper_eq : ∀ p, isLiteral p = true → upper p = p.toUpper
  compile_eq : ∀ p, isLiteral p = true → compile p = some (occursIn p)

theorem toUpper_literal {c : Char} (h : c.toNat < 128) (hc : syntaxChars.contains c = false) :
    c.toUpper.toNat < 128 ∧ syntaxChars.contains c.toUpper = false ∧ c.toUpper.toUpper = c.toUpper := by
  have hall : ∀ n < 128, syntaxChars.contains (Char.ofNat n) = false →
      (Char.ofNat n).toUpper.toNat < 128 ∧ syntaxChars.contains (Char.ofNat n).toUpper = false ∧
        (Char.ofNat n).toUpper.toUpper = (Char.ofNat n).toUpper := by decide +kernel
  have hn := hall c.toNat h
  rw [Char.ofNat_toNat] at hn
  exact hn hc

/-- A text of letters that stand for themselves keeps its meaning as a pattern. -/
theorem literal_keepsMeaning (hraw : property raw "symbol_pattern" = some (.str pattern))
    (hupper : ∀ s, s ≠ "" → upper s ≠ "") (h : OnLiterals upper compile) (hliteral : isLiteral pattern = true)
    (hne : pattern ≠ "") : KeepsMeaning upper compile raw pattern := by
  have hchars : ∀ c ∈ pattern.toList, c.toNat < 128 ∧ syntaxChars.contains c = false := by
    intro c hc
    have hc := List.all_eq_true.mp hliteral c hc
    rw [Bool.and_eq_true, decide_eq_true_eq, Bool.not_eq_true'] at hc
    exact hc
  have hupperLiteral : isLiteral pattern.toUpper = true := by
    apply List.all_eq_true.mpr
    intro c hc
    rw [String.toUpper, String.toList_map] at hc
    obtain ⟨d, hd, rfl⟩ := List.mem_map.mp hc
    obtain ⟨hascii, hplain, -⟩ := toUpper_literal (hchars d hd).1 (hchars d hd).2
    rw [decide_eq_true hascii, hplain]
    rfl
  have hsameText : (pattern.toUpper).toList.map Char.toUpper = pattern.toList.map Char.toUpper := by
    rw [String.toUpper, String.toList_map, List.map_map]
    apply List.map_congr_left
    intro c hc
    exact (toUpper_literal (hchars c hc).1 (hchars c hc).2).2.2
  refine @keepsMeaning_of_stored upper compile raw pattern hraw hupper hne (occursIn pattern.toUpper) ?_ ?_
  · rw [h.upper_eq pattern hliteral, h.compile_eq _ hupperLiteral]
  · intro test htest symbol _
    rw [h.compile_eq pattern hliteral] at htest
    rw [← Option.some.inj htest, occursIn, occursIn, hsameText]

/-! ## Some patterns -/

/-- Patterns of letters that stand for themselves, the classes of digits and of the others, and no other patterns. -/
def somePatterns : Compile := fun p =>
  if p = "\\d" then some fun symbol => symbol.toList.any Char.isDigit
  else if p = "\\D" then some fun symbol => symbol.toList.any fun c => !c.isDigit
  else if isLiteral p then some (occursIn p)
  else none

def patternRule (pattern : String) : JsonValue := .obj [("kind", .str "block"), ("symbol_pattern", .str pattern)]

theorem toUpper_ne_empty {s : String} (h : s ≠ "") : s.toUpper ≠ "" := by
  intro hempty
  apply h
  rw [← String.toList_eq_nil_iff] at hempty ⊢
  rw [String.toUpper, String.toList_map] at hempty
  exact List.map_eq_nil_iff.mp hempty

theorem pepe_keepsMeaning : KeepsMeaning String.toUpper somePatterns (patternRule "pepe") "pepe" := by
  have hupper : String.toUpper "pepe" = "PEPE" := by decide +kernel
  refine (keepsMeaning_iff rfl (fun _ => toUpper_ne_empty) ⟨occursIn "", rfl, by decide +kernel⟩).mpr
    ⟨by decide, occursIn "PEPE", by rw [hupper]; rfl, ?_⟩
  intro test htest symbol _
  obtain rfl : occursIn "pepe" = test := Option.some.inj htest
  have hletters : "PEPE".toList.map Char.toUpper = "pepe".toList.map Char.toUpper := by decide +kernel
  rw [occursIn, occursIn, hletters]

/-- The class of the digits is stored as that of the other characters, and a pattern that is none is stored as it is. -/
theorem patterns_lost : ¬ KeepsMeaning String.toUpper somePatterns (patternRule "\\d") "\\d" ∧
    ¬ KeepsMeaning String.toUpper somePatterns (patternRule "(") "(" := by
  constructor
  · intro h
    obtain ⟨stored, hstored, hsame⟩ := stored_of_keepsMeaning rfl (fun _ => toUpper_ne_empty) (by decide) h
    have hupper : String.toUpper "\\d" = "\\D" := by decide +kernel
    have hdigit := hsame _ rfl "1" (by decide)
    rw [hupper] at hstored
    rw [← Option.some.inj hstored] at hdigit
    revert hdigit
    decide +kernel
  · intro h
    obtain ⟨stored, hstored, -⟩ := stored_of_keepsMeaning rfl (fun _ => toUpper_ne_empty) (by decide) h
    have hnone : somePatterns (String.toUpper "(") = none := by decide +kernel
    rw [hnone] at hstored
    cases hstored

end SuperAi.Intent
