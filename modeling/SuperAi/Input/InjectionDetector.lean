import SuperAi.Input.PiiScrubber

/-! # Scoring injections

`InjectionDetector.score` (`input/injection.detector.ts`): each category of triggers counts once. No trigger touches
a placeholder of the scrubber, so the score of a scrubbed text is that of the triggers of the text itself which no
redaction touches (`score_scrubbed`). Scores are numbers of any type with decimals.
-/
namespace SuperAi.Input
open SuperAi.Foundations
set_option autoImplicit false

/-- A trigger, with the source of its pattern. -/
structure Trigger where
  source : String
  pattern : Regex

structure PatternCategory (N : Type) where
  name : String
  weight : N
  patterns : List Trigger

structure InjectionScore (N : Type) where
  score : N
  triggers : List String
  blocked : Bool
  deriving DecidableEq, Repr

section
open Regex

/-- `\s+`. -/
def spaces : Regex := atLeastOne space

/-- Words with spaces between them, of any case. -/
def phrase (words : List String) : Regex := sequence ((words.map word).intersperse spaces)

def anyOf (words : List String) : Regex := choice (words.map word)

/-- `(?:^|\n)\s*`. -/
def lineStart : Regex := .seq (.alt .textStart (.one (oneOf '\n'))) (.many space)

def direct_instruction_override : List Trigger :=
  [⟨"ignore\\s+(?:all\\s+)?previous",
      sequence [word "ignore", spaces, optional (.seq (word "all") spaces), word "previous"]⟩,
    ⟨"disregard\\s+your", phrase ["disregard", "your"]⟩,
    ⟨"your\\s+new\\s+instructions\\s+are", phrase ["your", "new", "instructions", "are"]⟩,
    ⟨"forget\\s+everything", phrase ["forget", "everything"]⟩,
    ⟨"ignore\\s+(?:the\\s+)?(?:above|prior)\\s+(?:instructions|rules|directives)",
      sequence [word "ignore", spaces, optional (.seq (word "the") spaces), anyOf ["above", "prior"], spaces,
        anyOf ["instructions", "rules", "directives"]]⟩,
    ⟨"do\\s+not\\s+follow\\s+(?:your|the)\\s+(?:original|previous)",
      sequence [phrase ["do", "not", "follow"], spaces, anyOf ["your", "the"], spaces,
        anyOf ["original", "previous"]]⟩]

def privilege_escalation : List Trigger :=
  [⟨"you\\s+are\\s+now", phrase ["you", "are", "now"]⟩,
    ⟨"act\\s+as", phrase ["act", "as"]⟩,
    ⟨"pretend\\s+you\\s+are", phrase ["pretend", "you", "are"]⟩,
    ⟨"you\\s+have\\s+been\\s+granted", phrase ["you", "have", "been", "granted"]⟩,
    ⟨"assume\\s+the\\s+role\\s+of", phrase ["assume", "the", "role", "of"]⟩,
    ⟨"switch\\s+to\\s+(?:admin|root|superuser)",
      sequence [phrase ["switch", "to"], spaces, anyOf ["admin", "root", "superuser"]]⟩]

def data_exfiltration : List Trigger :=
  [⟨"send\\s+this\\s+to", phrase ["send", "this", "to"]⟩,
    ⟨"output\\s+your\\s+system\\s+prompt", phrase ["output", "your", "system", "prompt"]⟩,
    ⟨"repeat\\s+your\\s+instructions", phrase ["repeat", "your", "instructions"]⟩,
    ⟨"reveal\\s+(?:your|the)\\s+(?:system|hidden|secret)",
      sequence [word "reveal", spaces, anyOf ["your", "the"], spaces, anyOf ["system", "hidden", "secret"]]⟩,
    ⟨"print\\s+(?:your|the)\\s+(?:config|configuration|prompt)",
      sequence [word "print", spaces, anyOf ["your", "the"], spaces, anyOf ["config", "configuration", "prompt"]]⟩]

def trading_manipulation : List Trigger :=
  [⟨"buy\\s+maximum", phrase ["buy", "maximum"]⟩,
    ⟨"sell\\s+everything", phrase ["sell", "everything"]⟩,
    ⟨"ignore\\s+risk\\s+limits", phrase ["ignore", "risk", "limits"]⟩,
    ⟨"override\\s+position\\s+limits", phrase ["override", "position", "limits"]⟩,
    ⟨"disable\\s+circuit\\s+breaker", phrase ["disable", "circuit", "breaker"]⟩,
    ⟨"bypass\\s+(?:risk|safety|security)\\s+(?:checks|limits|controls)",
      sequence [word "bypass", spaces, anyOf ["risk", "safety", "security"], spaces,
        anyOf ["checks", "limits", "controls"]]⟩,
    ⟨"remove\\s+(?:all\\s+)?(?:stop[- ]?loss|limits)",
      sequence [word "remove", spaces, optional (.seq (word "all") spaces),
        .alt (sequence [word "stop", optional (.one (oneOf '-' ++ oneOf ' ')), word "loss"]) (word "limits")]⟩,
    ⟨"max(?:imum)?\\s+leverage", sequence [word "max", optional (word "imum"), spaces, word "leverage"]⟩]

def structural_anomaly : List Trigger :=
  [⟨"(?:^|\\n)\\s*(?:you\\s+(?:must|should|need\\s+to)|please\\s+(?:do|execute|run))",
      .seq lineStart (.alt
        (sequence [word "you", spaces, choice [word "must", word "should", phrase ["need", "to"]]])
        (sequence [word "please", spaces, anyOf ["do", "execute", "run"]]))⟩,
    ⟨"(?:^|\\n)\\s*(?:step\\s+\\d|instruction\\s*[:.])",
      .seq lineStart (.alt (sequence [word "step", spaces, .one digit])
        (sequence [word "instruction", .many space, .one (oneOf ':' ++ oneOf '.')]))⟩]

end

section
variable {N : Type} [OfScientific N] [Add N] [LT N] [DecidableLT N]

def PATTERN_CATEGORIES : List (PatternCategory N) :=
  [⟨"direct_instruction_override", 0.4, direct_instruction_override⟩,
    ⟨"privilege_escalation", 0.35, privilege_escalation⟩,
    ⟨"data_exfiltration", 0.35, data_exfiltration⟩,
    ⟨"trading_manipulation", 0.5, trading_manipulation⟩,
    ⟨"structural_anomaly", 0.25, structural_anomaly⟩]

/-- The total of the weights of the categories that these triggers are in. -/
def totalScore (triggered : Regex → Bool) : N :=
  PATTERN_CATEGORIES.foldl
    (fun total category =>
      if category.patterns.any fun trigger => triggered trigger.pattern then total + category.weight else total) 0.0

def triggersOf (triggered : Regex → Bool) : List String :=
  (PATTERN_CATEGORIES (N := N)).flatMap fun category =>
    (category.patterns.filter fun trigger => triggered trigger.pattern).map fun trigger =>
      category.name ++ ":" ++ trigger.source

/-- `Math.min(1, Math.max(0, total))`. -/
def clamped (total : N) : N :=
  let atLeastZero : N := if total < 0.0 then 0.0 else total
  if 1.0 < atLeastZero then 1.0 else atLeastZero

/-- The score of a text in which these patterns match. -/
def scoreOf (threshold : N) (triggered : Regex → Bool) : InjectionScore N where
  score := clamped (totalScore triggered)
  triggers := triggersOf (N := N) triggered
  blocked := decide (threshold < clamped (totalScore triggered))

/-- `InjectionDetector.score`. -/
def injectionScore (threshold : N) (text : List Char) : InjectionScore N :=
  scoreOf threshold fun pattern => pattern.test text

/-! ## Scrubbed texts -/

def allTriggers : List Trigger :=
  direct_instruction_override ++ privilege_escalation ++ data_exfiltration ++ trading_manipulation ++ structural_anomaly

theorem mem_allTriggers {category : PatternCategory N} (h : category ∈ PATTERN_CATEGORIES) {trigger : Trigger}
    (htrigger : trigger ∈ category.patterns) : trigger ∈ allTriggers := by
  simp only [PATTERN_CATEGORIES, List.mem_cons, List.not_mem_nil, or_false] at h
  simp only [allTriggers, List.mem_append]
  obtain rfl | rfl | rfl | rfl | rfl := h
  · exact .inl (.inl (.inl (.inl htrigger)))
  · exact .inl (.inl (.inl (.inr htrigger)))
  · exact .inl (.inl (.inr htrigger))
  · exact .inl (.inr htrigger)
  · exact .inr htrigger

theorem scoreOf_congr {triggered triggered' : Regex → Bool}
    (h : ∀ trigger ∈ allTriggers, triggered trigger.pattern = triggered' trigger.pattern) (threshold : N) :
    scoreOf threshold triggered = scoreOf threshold triggered' := by
  have hcategory : ∀ category ∈ PATTERN_CATEGORIES (N := N), ∀ trigger ∈ category.patterns,
      triggered trigger.pattern = triggered' trigger.pattern :=
    fun category hcategory trigger htrigger => h trigger (mem_allTriggers hcategory htrigger)
  have htotal : totalScore triggered = (totalScore triggered' : N) := by
    unfold totalScore
    refine List.foldl_ext _ _ _ fun total category hmem => ?_
    have hany : (category.patterns.any fun trigger => triggered trigger.pattern) =
        category.patterns.any fun trigger => triggered' trigger.pattern := by
      rw [Bool.eq_iff_iff, List.any_eq_true, List.any_eq_true]
      exact exists_congr fun trigger => and_congr_right fun h => by rw [hcategory category hmem trigger h]
    rw [hany]
  have htriggers : triggersOf (N := N) triggered = triggersOf (N := N) triggered' := by
    unfold triggersOf
    refine List.flatMap_congr fun category hmem => ?_
    rw [List.filter_congr fun trigger htrigger => hcategory category hmem trigger htrigger]
  unfold scoreOf
  rw [htotal, htriggers]

/-- No trigger touches a placeholder, or sees more of what is beside it than whether it starts the text. -/
theorem triggers_passPlaceholders {trigger : Trigger} (h : trigger ∈ allTriggers) :
    PassesPlaceholders trigger.pattern ∧ trigger.pattern.noBoundary = true ∧ trigger.pattern.nullable = false := by
  have hall : ∀ pattern ∈ allTriggers.map Trigger.pattern,
      (∀ placeholder ∈ PATTERNS.map PatternEntry.placeholder, Regex.keepsOut pattern placeholder.toList = true) ∧
        pattern.noBoundary = true ∧ pattern.nullable = false := by decide +kernel
  obtain ⟨hplaceholders, hboundary, hnullable⟩ := hall _ (List.mem_map_of_mem h)
  exact ⟨fun entry hentry => hplaceholders _ (List.mem_map_of_mem hentry), hboundary, hnullable⟩

/-- The score of the scrubbed text is the score of the triggers that no redaction touches. -/
theorem score_scrubbed (threshold : N) (text : List Char) :
    injectionScore threshold (scrub text).scrubbed = scoreOf threshold fun pattern => survives pattern text := by
  refine scoreOf_congr (fun trigger htrigger => ?_) threshold
  obtain ⟨hplaceholders, hboundary, hnullable⟩ := triggers_passPlaceholders htrigger
  exact test_scrubbed_iff hplaceholders hboundary hnullable text

end
end SuperAi.Input
