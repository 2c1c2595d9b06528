import SuperAi.Foundations.Numerals

/-! # Decimal amounts in base units

`toBaseUnits` and `toPlainDecimalString` of `venues/trade-router.service.ts`, from the text that JavaScript prints for
a number (`JsNumber.text`). The text is written out without an exponent, cut behind the places that a token has, and
freed of leading zeros: what comes out is the numeral of the amount in base units, rounded down
(`toBaseUnits_exact`).
-/
namespace SuperAi.Venues
open SuperAi.Foundations
set_option autoImplicit false

/-! ## Strings -/

/-- `const [whole, frac = ''] = s.split('.')`. -/
def splitPoint (s : List Char) : List Char × List Char :=
  match s.splitOn '.' with
  | whole :: frac :: _ => (whole, frac)
  | [whole] => (whole, [])
  | [] => ([], [])

/-- `/e/i`. -/
def isExponentMark (c : Char) : Bool := c == 'e' || c == 'E'

/-- `parseInt(s, 10)`, of a text that has digits. -/
def parseInt (s : List Char) : ℤ :=
  let (negative, digits) := readSign s
  if negative then -digitsNat (readDigits digits).1 else digitsNat (readDigits digits).1

/-- `s.replace(/^0+(?=\d)/, '')`. -/
def stripLeadingZeros : List Char → List Char
  | c :: c' :: cs => if c = '0' ∧ (digitVal? c').isSome then stripLeadingZeros (c' :: cs) else c :: c' :: cs
  | cs => cs

/-- `s.padEnd(length, '0')`. -/
def padEndZeros (s : List Char) (length : ℕ) : List Char := s ++ List.replicate (length - s.length) '0'

/-! ## Conversion -/

def plainText (s : List Char) : List Char :=
  if !s.any isExponentMark then s
  else
    match s.splitOnP isExponentMark with
    | mantissa :: expPart :: _ =>
      let exp := parseInt expPart
      let negative := mantissa.head? == some '-'
      let m := if negative then mantissa.drop 1 else mantissa
      let (mWhole, mFrac) := splitPoint m
      let digits := mWhole ++ mFrac
      let pointPos : ℤ := mWhole.length + exp
      let out :=
        if pointPos ≤ 0 then '0' :: '.' :: (List.replicate (-pointPos).toNat '0' ++ digits)
        else if digits.length ≤ pointPos then digits ++ List.replicate (pointPos - digits.length).toNat '0'
        else digits.take pointPos.toNat ++ '.' :: digits.drop pointPos.toNat
      if negative then '-' :: out else out
    | _ => s

def toPlainDecimalString (n : JsNumber) : List Char := plainText n.text

/-- The number is above zero. -/
def isPositive : JsNumber → Bool
  | .zero => false
  | .nonzero d => !d.negative

/-- `none` is a number that is not finite. -/
def toBaseUnits (amount : Option JsNumber) (decimals : ℕ) : List Char :=
  match amount with
  | none => ['0']
  | some n =>
    if !isPositive n then ['0']
    else
      let (whole, frac) := splitPoint (toPlainDecimalString n)
      let paddedFrac := padEndZeros (frac.take decimals) decimals
      let combined := stripLeadingZeros (whole ++ paddedFrac)
      if combined = [] then ['0'] else combined

/-- The number that a numeral is read as, `BigInt(s)`. -/
def unitsNat (s : List Char) : ℕ := Nat.ofDigitChars 10 s 0

/-! ## Texts made of digits -/

theorem digitChar_ne (d : Digit) : digitChar d ≠ '.' ∧ digitChar d ≠ '-' ∧ isExponentMark (digitChar d) = false := by
  revert d
  decide

theorem digitChar_eq_zero_iff (d : Digit) : digitChar d = '0' ↔ d = zeroDigit := by
  revert d
  decide

theorem splitPoint_text (int frac : List Digit) :
    splitPoint (int.map digitChar ++ NumberParts.fracText frac) = (int.map digitChar, frac.map digitChar) := by
  have hplain : ∀ ds : List Digit, ∀ c ∈ ds.map digitChar, (c == '.') = false := by
    intro ds c hc
    obtain ⟨d, -, rfl⟩ := List.mem_map.mp hc
    exact beq_false_of_ne (digitChar_ne d).1
  unfold splitPoint
  rw [List.splitOn_eq_splitOnP]
  by_cases hnil : frac = []
  · rw [hnil, NumberParts.fracText, if_pos rfl, List.append_nil, List.splitOnP_eq_singleton (hplain int)]
    rfl
  · rw [NumberParts.fracText, if_neg hnil, List.splitOnP_append_cons_of_forall_mem (hplain int) '.' rfl,
      List.splitOnP_eq_singleton (hplain frac)]

theorem stripLeadingZeros_digits (ds : List Digit) :
    stripLeadingZeros (ds.map digitChar) = (dropZeros ds).map digitChar := by
  induction ds with
  | nil => rfl
  | cons d ds ih =>
    cases ds with
    | nil => rfl
    | cons e ds =>
      rw [List.map_cons, List.map_cons, stripLeadingZeros, dropZeros, digitVal?_digitChar]
      by_cases hzero : d = zeroDigit
      · rw [if_pos ⟨(digitChar_eq_zero_iff d).mpr hzero, rfl⟩, if_pos hzero]
        exact ih
      · rw [if_neg fun h => hzero ((digitChar_eq_zero_iff d).mp h.1), if_neg hzero]
        rfl

theorem parseInt_sign (exp : ℤ) :
    parseInt ((if 0 < exp then '+' else '-') :: (natDigits exp.natAbs).map digitChar) = exp := by
  have hread : readDigits ((natDigits exp.natAbs).map digitChar) = (natDigits exp.natAbs, []) := by
    simpa using @readDigits_printed (natDigits exp.natAbs) [] (by simp [EndsDigits])
  by_cases hpos : 0 < exp
  · rw [if_pos hpos]
    simp only [parseInt, readSign, hread, digitsNat_natDigits, Bool.false_eq_true, if_false]
    omega
  · rw [if_neg hpos]
    simp only [parseInt, readSign, hread, digitsNat_natDigits, if_true]
    omega

/-! ## Plain notation -/

/-- The digits before and after the point once the exponent is written out. -/
def plainDigits (p : NumberParts) : List Digit × List Digit :=
  let digits := p.int ++ p.frac
  let pointPos : ℤ := p.int.length + p.exp
  if p.exp = 0 then (p.int, p.frac)
  else if pointPos ≤ 0 then ([zeroDigit], List.replicate (-pointPos).toNat zeroDigit ++ digits)
  else if digits.length ≤ pointPos then (digits ++ List.replicate (pointPos - digits.length).toNat zeroDigit, [])
  else (digits.take pointPos.toNat, digits.drop pointPos.toNat)

theorem not_exponentMark (int frac : List Digit) :
    ∀ c ∈ int.map digitChar ++ NumberParts.fracText frac, isExponentMark c = false := by
  intro c hc
  obtain hint | hfrac := List.mem_append.mp hc
  · obtain ⟨d, -, rfl⟩ := List.mem_map.mp hint
    exact (digitChar_ne d).2.2
  · unfold NumberParts.fracText at hfrac
    split at hfrac
    · cases hfrac
    · obtain rfl | hdigit := List.mem_cons.mp hfrac
      · rfl
      · obtain ⟨d, -, rfl⟩ := List.mem_map.mp hdigit
        exact (digitChar_ne d).2.2

/-- The text without its exponent, and the exponent. -/
theorem splitOnP_text {p : NumberParts} (hexp : p.exp ≠ 0) :
    p.text.any isExponentMark = true ∧ p.text.splitOnP isExponentMark =
      [p.int.map digitChar ++ NumberParts.fracText p.frac,
        (if 0 < p.exp then '+' else '-') :: (natDigits p.exp.natAbs).map digitChar] := by
  have htext : p.text = (p.int.map digitChar ++ NumberParts.fracText p.frac) ++
      'e' :: (if 0 < p.exp then '+' else '-') :: (natDigits p.exp.natAbs).map digitChar := by
    rw [NumberParts.text, NumberParts.expText, if_neg hexp, List.append_assoc]
  have htail : List.splitOnP isExponentMark
      ((if 0 < p.exp then '+' else '-') :: (natDigits p.exp.natAbs).map digitChar) =
        [(if 0 < p.exp then '+' else '-') :: (natDigits p.exp.natAbs).map digitChar] := by
    apply List.splitOnP_eq_singleton
    intro c hc
    obtain rfl | hdigit := List.mem_cons.mp hc
    · by_cases hpos : 0 < p.exp
      · rw [if_pos hpos]
        rfl
      · rw [if_neg hpos]
        rfl
    · obtain ⟨d, -, rfl⟩ := List.mem_map.mp hdigit
      exact (digitChar_ne d).2.2
  constructor
  · rw [htext, List.any_append]
    simp [isExponentMark]
  · rw [htext, List.splitOnP_append_cons_of_forall_mem (not_exponentMark p.int p.frac) 'e' rfl, htail]

theorem plainText_text {p : NumberParts} (hp : p.int ≠ []) :
    plainText p.text = (plainDigits p).1.map digitChar ++ NumberParts.fracText (plainDigits p).2 := by
  by_cases hexp : p.exp = 0
  · have htext : p.text = p.int.map digitChar ++ NumberParts.fracText p.frac := by
      rw [NumberParts.text, NumberParts.expText, if_pos hexp, List.append_nil]
    have hnone : (p.int.map digitChar ++ NumberParts.fracText p.frac).any isExponentMark = false := by
      rw [List.any_eq_false]
      exact fun c hc => by simp [not_exponentMark p.int p.frac c hc]
    rw [htext, plainText, hnone, plainDigits, if_pos hexp]
    rfl
  · obtain ⟨hsome, hsplit⟩ := splitOnP_text hexp
    have hminus : ((p.int.map digitChar ++ NumberParts.fracText p.frac).head? == some '-') = false := by
      obtain ⟨d, ds, hds⟩ := List.exists_cons_of_ne_nil hp
      rw [hds]
      simpa using (digitChar_ne d).2.1
    have hzero : ∀ n : ℕ, List.replicate n '0' = (List.replicate n zeroDigit).map digitChar := by
      intro n
      rw [List.map_replicate]
      rfl
    unfold plainText
    rw [hsome, hsplit]
    simp only [Bool.not_true, Bool.false_eq_true, if_false, hminus, splitPoint_text, parseInt_sign p.exp]
    rw [plainDigits, if_neg hexp]
    rw [← List.map_append, List.length_map, List.length_map]
    by_cases hsmall : (p.int.length : ℤ) + p.exp ≤ 0
    · rw [if_pos hsmall, if_pos hsmall, NumberParts.fracText, if_neg (by simp [hp]), hzero, ← List.map_append]
      rfl
    · rw [if_neg hsmall, if_neg hsmall]
      by_cases hlarge : ((p.int ++ p.frac).length : ℤ) ≤ p.int.length + p.exp
      · rw [if_pos hlarge, if_pos hlarge, NumberParts.fracText, if_pos rfl, List.append_nil, hzero, ← List.map_append]
      · have hrest : (p.int ++ p.frac).drop ((p.int.length : ℤ) + p.exp).toNat ≠ [] := by
          rw [ne_eq, List.drop_eq_nil_iff]
          omega
        rw [if_neg hlarge, if_neg hlarge, NumberParts.fracText, if_neg hrest, List.map_take, List.map_drop]

theorem fraction_plainDigits (p : NumberParts) :
    fraction (plainDigits p).1 (plainDigits p).2 =
      digitsNat (p.int ++ p.frac) * 10 ^ ((p.int.length : ℤ) + p.exp - (p.int ++ p.frac).length) := by
  have hten : (10 : ℚ) ≠ 0 := by norm_num
  unfold plainDigits
  dsimp only
  by_cases hexp : p.exp = 0
  · rw [if_pos hexp, fraction, hexp, List.length_append]
    have hpoint : (p.int.length : ℤ) + 0 - ((p.int.length + p.frac.length : ℕ) : ℤ) = -(p.frac.length : ℤ) := by
      push_cast
      ring
    rw [hpoint, zpow_neg, zpow_natCast, div_eq_mul_inv]
  · rw [if_neg hexp]
    by_cases hsmall : (p.int.length : ℤ) + p.exp ≤ 0
    · rw [if_pos hsmall, fraction]
      have hlength : (List.replicate (-((p.int.length : ℤ) + p.exp)).toNat zeroDigit ++ (p.int ++ p.frac)).length =
          (-((p.int.length : ℤ) + p.exp)).toNat + (p.int ++ p.frac).length := by
        rw [List.length_append, List.length_replicate]
      have hdigits : digitsNat ([zeroDigit] ++ (List.replicate (-((p.int.length : ℤ) + p.exp)).toNat zeroDigit ++
          (p.int ++ p.frac))) = digitsNat (p.int ++ p.frac) := by
        have hpad := dropLeadingZeros_value (List.replicate (-((p.int.length : ℤ) + p.exp)).toNat zeroDigit ++
          (p.int ++ p.frac)) 0
        rw [zeroDigit_eq, dropLeadingZeros_replicate] at hpad
        rw [zeroDigit_eq, List.singleton_append, digitsNat_cons, ← hpad.1, (dropLeadingZeros_value (p.int ++ p.frac) _).1]
        simp
      rw [hdigits, hlength, div_eq_mul_inv, ← zpow_natCast, ← zpow_neg]
      congr 2
      push_cast
      omega
    · rw [if_neg hsmall]
      by_cases hlarge : ((p.int ++ p.frac).length : ℤ) ≤ p.int.length + p.exp
      · rw [if_pos hlarge, fraction, List.append_nil, zeroDigit_eq, digitsNat_append_zeros, List.length_nil, pow_zero,
          div_one, Nat.cast_mul, Nat.cast_pow, Nat.cast_ofNat, ← zpow_natCast]
        congr 2
        omega
      · rw [if_neg hlarge, fraction, List.take_append_drop, div_eq_mul_inv, ← zpow_natCast, ← zpow_neg, List.length_drop]
        congr 2
        omega

theorem plainDigits_ne_nil {p : NumberParts} (hp : p.int ≠ []) : (plainDigits p).1 ≠ [] := by
  unfold plainDigits
  dsimp only
  by_cases hexp : p.exp = 0
  · rw [if_pos hexp]
    exact hp
  · rw [if_neg hexp]
    by_cases hsmall : (p.int.length : ℤ) + p.exp ≤ 0
    · rw [if_pos hsmall]
      exact List.cons_ne_nil 0 []
    · rw [if_neg hsmall]
      by_cases hlarge : ((p.int ++ p.frac).length : ℤ) ≤ p.int.length + p.exp
      · rw [if_pos hlarge]
        simp [hp]
      · rw [if_neg hlarge, ne_eq, List.take_eq_nil_iff]
        simp [hp]
        omega

/-! ## The amount in base units -/

theorem isPositive_iff (n : JsNumber) : isPositive n = true ↔ 0 < n.toRat := by
  cases n with
  | zero => simp [isPositive, JsNumber.toRat]
  | nonzero d =>
    have hdigits : (0 : ℚ) < digitsNat d.digits * 10 ^ (d.point - d.digits.length) := by
      have hpos : (0 : ℚ) < digitsNat d.digits := Nat.cast_pos.mpr (digitsNat_pos d.digits_ne_nil d.head_ne_zero)
      exact mul_pos hpos (zpow_pos (by norm_num) _)
    cases hneg : d.negative with
    | true =>
      simp only [isPositive, JsNumber.toRat, hneg]
      simp
      linarith
    | false =>
      simp only [isPositive, JsNumber.toRat, hneg]
      simpa using hdigits

/-- Written out without an exponent, a decimal above zero is the fraction of its digits. -/
theorem toRat_eq_fraction {d : Decimal} (hd : d.negative = false) :
    (JsNumber.nonzero d).toRat = fraction (plainDigits d.parts).1 (plainDigits d.parts).2 := by
  rw [fraction_plainDigits, ← d.ofParts_parts, hd, JsNumber.ofParts, JsNumber.toRat_ofDigits]
  simp

theorem toBaseUnits_of_pos {n : JsNumber} (hn : 0 < n.toRat) (decimals : ℕ) :
    toBaseUnits (some n) decimals = Nat.toDigits 10 ⌊n.toRat * 10 ^ decimals⌋₊ := by
  have hpositive := (isPositive_iff n).mpr hn
  cases n with
  | zero => simp [isPositive] at hpositive
  | nonzero d =>
    have hsign : d.negative = false := by simpa [isPositive] using hpositive
    have hint := d.parts_wellFormed.1
    have hplain : toPlainDecimalString (.nonzero d) =
        (plainDigits d.parts).1.map digitChar ++ NumberParts.fracText (plainDigits d.parts).2 := by
      rw [toPlainDecimalString, JsNumber.text, hsign]
      exact plainText_text hint
    have hpadded : (plainDigits d.parts).1.map digitChar ++
        padEndZeros (((plainDigits d.parts).2.map digitChar).take decimals) decimals =
          (scaled (plainDigits d.parts).1 (plainDigits d.parts).2 decimals).map digitChar := by
      rw [scaled, padEndZeros, List.map_append, List.map_append, List.map_take, List.map_replicate, List.length_take,
        List.length_take, List.length_map]
      rfl
    have hne : scaled (plainDigits d.parts).1 (plainDigits d.parts).2 decimals ≠ [] := by
      rw [scaled]
      simp [plainDigits_ne_nil hint]
    unfold toBaseUnits
    simp only [hpositive, Bool.not_true, Bool.false_eq_true, if_false, hplain, splitPoint_text, hpadded,
      stripLeadingZeros_digits]
    rw [← toDigits_dropZeros hne, if_neg Nat.toDigits_ne_nil, digitsNat_scaled, toRat_eq_fraction hsign]

/-- The amount in base units is the numeral of the decimal amount rounded down, at most the amount, and monotone in
it, also where the decimals are rounded to doubles. -/
theorem toBaseUnits_exact {n : JsNumber} (hn : 0 < n.toRat) (decimals : ℕ) :
    toBaseUnits (some n) decimals = Nat.toDigits 10 ⌊n.toRat * 10 ^ decimals⌋₊ ∧
      (unitsNat (toBaseUnits (some n) decimals) : ℚ) / 10 ^ decimals ≤ n.toRat ∧
      (∀ n' : JsNumber, n.toRat ≤ n'.toRat →
        unitsNat (toBaseUnits (some n) decimals) ≤ unitsNat (toBaseUnits (some n') decimals)) ∧
      ∀ (round : ℚ → ℚ) (n' : JsNumber), Monotone round → round n.toRat < round n'.toRat →
        unitsNat (toBaseUnits (some n) decimals) ≤ unitsNat (toBaseUnits (some n') decimals) := by
  have hunits : ∀ {m : JsNumber}, 0 < m.toRat →
      unitsNat (toBaseUnits (some m) decimals) = ⌊m.toRat * 10 ^ decimals⌋₊ := by
    intro m hm
    rw [toBaseUnits_of_pos hm, unitsNat, Nat.ofDigitChars_ten_toDigits]
  have hmono : ∀ n' : JsNumber, n.toRat ≤ n'.toRat →
      unitsNat (toBaseUnits (some n) decimals) ≤ unitsNat (toBaseUnits (some n') decimals) := by
    intro n' hle
    rw [hunits hn, hunits (hn.trans_le hle)]
    exact Nat.floor_le_floor (by gcongr)
  refine ⟨toBaseUnits_of_pos hn decimals, ?_, hmono, ?_⟩
  · rw [hunits hn, div_le_iff₀ (by positivity)]
    exact Nat.floor_le (by positivity)
  · intro round n' hround hlt
    exact hmono n' (hround.reflect_lt hlt).le

/-- `1e-7`, which is printed with an exponent. -/
def tenMillionth : JsNumber := .ofDigits false (natDigits 1) (-6)

theorem tenMillionth_toRat : tenMillionth.toRat = 1 / 10000000 := by
  have hlength : (natDigits 1).length = 1 := by simp [natDigits]
  rw [tenMillionth, JsNumber.toRat_ofDigits, digitsNat_natDigits, hlength]
  norm_num

theorem tenMillionth_wei : 0 < tenMillionth.toRat ∧
    toBaseUnits (some tenMillionth) 18 = Nat.toDigits 10 100000000000 ∧
    (unitsNat (toBaseUnits (some tenMillionth) 18) : ℚ) / 10 ^ 18 ≤ 1 / 10000000 := by
  have hpos : 0 < tenMillionth.toRat := by
    rw [tenMillionth_toRat]
    norm_num
  have hfloor : ⌊tenMillionth.toRat * 10 ^ 18⌋₊ = 100000000000 := by
    rw [tenMillionth_toRat, show (1 / 10000000 * 10 ^ 18 : ℚ) = (100000000000 : ℕ) by norm_num, Nat.floor_natCast]
  obtain ⟨hnumeral, hle, -, -⟩ := toBaseUnits_exact hpos 18
  exact ⟨hpos, hfloor ▸ hnumeral, tenMillionth_toRat ▸ hle⟩

end SuperAi.Venues
