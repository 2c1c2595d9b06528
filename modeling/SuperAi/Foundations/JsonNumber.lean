import Mathlib.Data.Nat.Digits.Lemmas
import Mathlib.Data.List.DropRight
import Mathlib.Algebra.Order.Field.Rat
import Mathlib.Tactic.Linarith

/-! # Decimal numbers and their text

A finite JavaScript number in the form in which it is printed: a sign, decimal digits without
leading or trailing zeros, and the position of the decimal point. Doubles are such decimals; here
their length is not bounded, and `-0` is `0`, as it is once printed. `JsNumber.text` follows
Number::toString, `parseNumber` the number grammar of JSON, and reading back a printed number gives
the number (`parseNumber_text`).
-/
namespace SuperAi.Foundations
set_option autoImplicit false

/-! ## Digits -/

abbrev Digit := Fin 10

def digitChar (d : Digit) : Char := Char.ofNat (48 + d)

def digitVal? (c : Char) : Option Digit :=
  if h : 48 ≤ c.toNat ∧ c.toNat < 58 then some ⟨c.toNat - 48, by omega⟩ else none

@[simp] theorem digitVal?_digitChar (d : Digit) : digitVal? (digitChar d) = some d := by
  revert d
  decide

def readDigits : List Char → List Digit × List Char
  | [] => ([], [])
  | c :: cs =>
    match digitVal? c with
    | some d => (d :: (readDigits cs).1, (readDigits cs).2)
    | none => ([], c :: cs)

def EndsDigits (cs : List Char) : Prop := ∀ c ∈ cs.head?, digitVal? c = none

theorem readDigits_printed (ds : List Digit) {cs : List Char} (h : EndsDigits cs) :
    readDigits (ds.map digitChar ++ cs) = (ds, cs) := by
  induction ds with
  | nil =>
    cases cs with
    | nil => rfl
    | cons c cs =>
      have hc : digitVal? c = none := h c rfl
      simp [readDigits, hc]
  | cons d ds ih => simp [readDigits, ih]

/-- The decimal digits of a natural number, most significant first; none for zero. -/
def natDigits (n : ℕ) : List Digit := ((Nat.digits 10 n).map (Fin.ofNat 10)).reverse

def digitsNat (ds : List Digit) : ℕ := Nat.ofDigits 10 (ds.reverse.map Fin.val)

theorem digitsNat_natDigits (n : ℕ) : digitsNat (natDigits n) = n := by
  have hval : ((Nat.digits 10 n).map (Fin.ofNat 10)).map Fin.val = Nat.digits 10 n := by
    rw [List.map_map]
    refine (List.map_congr_left fun d hd => ?_).trans (List.map_id _)
    exact Nat.mod_eq_of_lt (Nat.digits_lt_base (by norm_num) hd)
  rw [digitsNat, natDigits, List.reverse_reverse, hval, Nat.ofDigits_digits]

theorem natDigits_ne_nil {n : ℕ} (h : n ≠ 0) : natDigits n ≠ [] := by
  simpa [natDigits] using Nat.digits_ne_nil_iff_ne_zero.mpr h

/-! ## Numbers -/

/-- A nonzero decimal: `0.d₁d₂…dₖ * 10 ^ point`, with neither `d₁` nor `dₖ` zero. -/
structure Decimal where
  negative : Bool
  digits : List Digit
  point : ℤ
  digits_ne_nil : digits ≠ []
  head_ne_zero : digits.head? ≠ some 0
  last_ne_zero : digits.getLast? ≠ some 0
  deriving DecidableEq

inductive JsNumber
  | zero
  | nonzero (d : Decimal)
  deriving DecidableEq

/-- Drop leading zeros, moving the point along. -/
def dropLeadingZeros : List Digit → ℤ → List Digit × ℤ
  | [], point => ([], point)
  | d :: ds, point => if d = 0 then dropLeadingZeros ds (point - 1) else (d :: ds, point)

def dropTrailingZeros (ds : List Digit) : List Digit := ds.rdropWhile (· == 0)

theorem dropLeadingZeros_head (ds : List Digit) (point : ℤ) :
    (dropLeadingZeros ds point).1.head? ≠ some 0 := by
  induction ds generalizing point with
  | nil => simp [dropLeadingZeros]
  | cons d ds ih =>
    rw [dropLeadingZeros]
    split
    · exact ih _
    · rename_i hd
      simpa using hd

theorem dropTrailingZeros_last (ds : List Digit) : (dropTrailingZeros ds).getLast? ≠ some 0 := by
  intro hlast
  have hne : dropTrailingZeros ds ≠ [] := by
    intro hnil
    simp [hnil] at hlast
  have hkeep := List.rdropWhile_last_not (· == (0 : Digit)) ds hne
  rw [List.getLast?_eq_some_getLast hne, Option.some.injEq] at hlast
  exact hkeep (beq_iff_eq.mpr hlast)

theorem dropTrailingZeros_head {ds : List Digit} (h : ds.head? ≠ some 0) :
    (dropTrailingZeros ds).head? ≠ some 0 := by
  obtain ⟨t, ht⟩ := List.rdropWhile_prefix (· == (0 : Digit)) (l := ds)
  intro hhead
  refine h ?_
  rw [← ht, List.head?_append]
  exact (congrArg (Option.or · t.head?) hhead).trans rfl

/-- The number `0.d₁d₂… * 10 ^ point` with this sign. -/
def JsNumber.ofDigits (negative : Bool) (ds : List Digit) (point : ℤ) : JsNumber :=
  let lead := dropLeadingZeros ds point
  if h : dropTrailingZeros lead.1 = [] then zero
  else nonzero
    { negative, digits := dropTrailingZeros lead.1, point := lead.2, digits_ne_nil := h
      head_ne_zero := dropTrailingZeros_head (dropLeadingZeros_head ds point)
      last_ne_zero := dropTrailingZeros_last lead.1 }

theorem dropLeadingZeros_replicate (n : ℕ) (ds : List Digit) (point : ℤ) :
    dropLeadingZeros (List.replicate n 0 ++ ds) point = dropLeadingZeros ds (point - n) := by
  induction n generalizing point with
  | zero => simp
  | succ n ih =>
    rw [List.replicate_succ, List.cons_append, dropLeadingZeros, if_pos rfl, ih]
    congr 1
    push_cast
    ring

theorem dropLeadingZeros_of_head {ds : List Digit} (h : ds.head? ≠ some 0) (point : ℤ) :
    dropLeadingZeros ds point = (ds, point) := by
  cases ds with
  | nil => rfl
  | cons d ds =>
    have hd : d ≠ 0 := by simpa using h
    rw [dropLeadingZeros, if_neg hd]

theorem dropTrailingZeros_replicate {ds : List Digit} (h : ds.getLast? ≠ some 0) (n : ℕ) :
    dropTrailingZeros (ds ++ List.replicate n 0) = ds := by
  have hzeros : (List.replicate n (0 : Digit) ++ ds.reverse).dropWhile (· == 0)
      = ds.reverse.dropWhile (· == 0) := by
    induction n with
    | zero => rfl
    | succ n ih => rw [List.replicate_succ, List.cons_append, List.dropWhile_cons_of_pos rfl, ih]
  have hself : ds.reverse.dropWhile (· == 0) = ds.reverse := by
    cases hrev : ds.reverse with
    | nil => rfl
    | cons d t =>
      have hd : d ≠ 0 := by
        rw [← List.head?_reverse, hrev] at h
        simpa using h
      rw [List.dropWhile_cons_of_neg (by simpa using hd)]
  rw [dropTrailingZeros, List.rdropWhile, List.reverse_append, List.reverse_replicate, hzeros, hself,
    List.reverse_reverse]

/-- Padding a decimal with zeros on either side leaves the number. -/
theorem JsNumber.ofDigits_pad (d : Decimal) (a b : ℕ) :
    JsNumber.ofDigits d.negative (List.replicate a 0 ++ (d.digits ++ List.replicate b 0)) (d.point + a)
      = .nonzero d := by
  have hhead : (d.digits ++ List.replicate b 0).head? ≠ some 0 := by
    cases hd : d.digits with
    | nil => exact absurd hd d.digits_ne_nil
    | cons e es => simpa [hd] using d.head_ne_zero
  have hlead : dropLeadingZeros (List.replicate a 0 ++ (d.digits ++ List.replicate b 0)) (d.point + a)
      = (d.digits ++ List.replicate b 0, d.point) := by
    rw [dropLeadingZeros_replicate, dropLeadingZeros_of_head hhead, add_sub_cancel_right]
  simp only [JsNumber.ofDigits, hlead, dropTrailingZeros_replicate d.last_ne_zero, dif_neg d.digits_ne_nil]

def JsNumber.ofInt (n : ℤ) : JsNumber :=
  .ofDigits (decide (n < 0)) (natDigits n.natAbs) (natDigits n.natAbs).length

def JsNumber.toRat : JsNumber → ℚ
  | .zero => 0
  | .nonzero d =>
    (if d.negative then -1 else 1) * digitsNat d.digits * 10 ^ (d.point - d.digits.length)

/-! ### Values -/

theorem digitsNat_cons (d : Digit) (ds : List Digit) :
    digitsNat (d :: ds) = d * 10 ^ ds.length + digitsNat ds := by
  rw [digitsNat, digitsNat, List.reverse_cons, List.map_append, Nat.ofDigits_append]
  simp
  ring

theorem digitsNat_append_zeros (ds : List Digit) (n : ℕ) :
    digitsNat (ds ++ List.replicate n 0) = digitsNat ds * 10 ^ n := by
  induction ds with
  | nil =>
    induction n with
    | zero => rfl
    | succ n ih =>
      rw [List.nil_append] at ih ⊢
      rw [List.replicate_succ, digitsNat_cons, ih]
      simp [digitsNat]
  | cons d ds ih =>
    rw [List.cons_append, digitsNat_cons, digitsNat_cons, ih, List.length_append, List.length_replicate,
      pow_add]
    ring

theorem dropLeadingZeros_value (ds : List Digit) (point : ℤ) :
    digitsNat (dropLeadingZeros ds point).1 = digitsNat ds ∧
      (dropLeadingZeros ds point).2 - (dropLeadingZeros ds point).1.length = point - ds.length := by
  induction ds generalizing point with
  | nil => exact ⟨rfl, rfl⟩
  | cons d ds ih =>
    rw [dropLeadingZeros]
    split
    · rename_i hzero
      obtain ⟨hvalue, hpoint⟩ := ih (point - 1)
      refine ⟨?_, ?_⟩
      · rw [hvalue, digitsNat_cons, hzero]
        simp
      · rw [hpoint, List.length_cons]
        push_cast
        ring
    · exact ⟨rfl, rfl⟩

/-- Digits are what is left without the trailing zeros, and these zeros. -/
theorem dropTrailingZeros_append (ds : List Digit) :
    ∃ n, ds = dropTrailingZeros ds ++ List.replicate n 0 := by
  induction ds using List.reverseRecOn with
  | nil => exact ⟨0, rfl⟩
  | append_singleton ds d ih =>
    by_cases hzero : d = 0
    · obtain ⟨n, hn⟩ := ih
      refine ⟨n + 1, ?_⟩
      rw [dropTrailingZeros, List.rdropWhile_concat_pos _ _ _ (by simp [hzero]), List.replicate_succ',
        ← List.append_assoc, hzero]
      exact congrArg (· ++ [0]) hn
    · refine ⟨0, ?_⟩
      rw [dropTrailingZeros, List.rdropWhile_concat_neg _ _ _ (by simp [hzero])]
      simp

theorem JsNumber.toRat_ofDigits (negative : Bool) (ds : List Digit) (point : ℤ) :
    (JsNumber.ofDigits negative ds point).toRat =
      (if negative then -1 else 1) * digitsNat ds * 10 ^ (point - ds.length) := by
  obtain ⟨hvalue, hpoint⟩ := dropLeadingZeros_value ds point
  obtain ⟨n, hn⟩ := dropTrailingZeros_append (dropLeadingZeros ds point).1
  have hsplit := digitsNat_append_zeros (dropTrailingZeros (dropLeadingZeros ds point).1) n
  rw [← hn, hvalue] at hsplit
  rw [JsNumber.ofDigits]
  split
  · rename_i hnil
    have hzero : digitsNat ds = 0 := by rw [hsplit, hnil]; simp [digitsNat]
    rw [hzero]
    simp [JsNumber.toRat]
  · have hlength : ((dropLeadingZeros ds point).1.length : ℤ) =
        (dropTrailingZeros (dropLeadingZeros ds point).1).length + n := by
      conv_lhs => rw [hn]
      simp
    have hexp : (dropLeadingZeros ds point).2 -
        (dropTrailingZeros (dropLeadingZeros ds point).1).length = n + (point - ds.length) := by omega
    rw [JsNumber.toRat, hexp, zpow_add₀ (by norm_num), zpow_natCast, hsplit]
    push_cast
    ring

@[simp] theorem JsNumber.toRat_ofInt (n : ℤ) : (JsNumber.ofInt n).toRat = n := by
  rw [JsNumber.ofInt, JsNumber.toRat_ofDigits, digitsNat_natDigits, sub_self, zpow_zero, mul_one]
  by_cases hneg : n < 0
  · simp only [hneg, decide_true, if_true]
    have habs : (n.natAbs : ℤ) = -n := by omega
    have hcast : ((n.natAbs : ℤ) : ℚ) = -n := by rw [habs]; push_cast; rfl
    rw [← Int.cast_natCast, hcast]
    ring
  · simp only [hneg, decide_false, Bool.false_eq_true, if_false]
    have habs : (n.natAbs : ℤ) = n := by omega
    rw [← Int.cast_natCast, habs, one_mul]
/-! ## Text -/

/-- A number literal without its sign: digits before and after the point, and an exponent. -/
structure NumberParts where
  int : List Digit
  frac : List Digit
  exp : ℤ

namespace NumberParts

def fracText (ds : List Digit) : List Char := if ds = [] then [] else '.' :: ds.map digitChar

def expText (exp : ℤ) : List Char :=
  if exp = 0 then []
  else 'e' :: (if 0 < exp then '+' else '-') :: (natDigits exp.natAbs).map digitChar

def text (p : NumberParts) : List Char := p.int.map digitChar ++ (fracText p.frac ++ expText p.exp)

/-- A literal of the grammar: some digits before the point, and no superfluous zero. -/
def WellFormed (p : NumberParts) : Prop :=
  p.int ≠ [] ∧ (p.int.head? = some 0 → p.int.length = 1)

end NumberParts

/-- How Number::toString lays out a decimal. -/
def Decimal.parts (d : Decimal) : NumberParts :=
  let k : ℤ := d.digits.length
  if k ≤ d.point ∧ d.point ≤ 21 then ⟨d.digits ++ List.replicate (d.point - k).toNat 0, [], 0⟩
  else if 0 < d.point ∧ d.point ≤ 21 then ⟨d.digits.take d.point.toNat, d.digits.drop d.point.toNat, 0⟩
  else if -6 < d.point ∧ d.point ≤ 0 then ⟨[0], List.replicate (-d.point).toNat 0 ++ d.digits, 0⟩
  else ⟨d.digits.take 1, d.digits.drop 1, d.point - 1⟩

def JsNumber.text : JsNumber → List Char
  | .zero => ['0']
  | .nonzero d => (if d.negative then ['-'] else []) ++ d.parts.text

/-! ## Parsing -/

def readInt (cs : List Char) : Option (List Digit × List Char) :=
  match readDigits cs with
  | ([], _) => none
  | (d :: ds, rest) => if d = 0 ∧ ds ≠ [] then none else some (d :: ds, rest)

def readFrac : List Char → Option (List Digit × List Char)
  | '.' :: cs =>
    match readDigits cs with
    | ([], _) => none
    | (d :: ds, rest) => some (d :: ds, rest)
  | cs => some ([], cs)

def readSign : List Char → Bool × List Char
  | '-' :: cs => (true, cs)
  | '+' :: cs => (false, cs)
  | cs => (false, cs)

def readExp (cs : List Char) : Option (ℤ × List Char) :=
  match cs with
  | 'e' :: cs | 'E' :: cs =>
    match readDigits (readSign cs).2 with
    | ([], _) => none
    | (ds, rest) => some ((if (readSign cs).1 then -digitsNat ds else digitsNat ds), rest)
  | cs => some (0, cs)

def readParts (cs : List Char) : Option (NumberParts × List Char) := do
  let (int, cs) ← readInt cs
  let (frac, cs) ← readFrac cs
  let (exp, cs) ← readExp cs
  some (⟨int, frac, exp⟩, cs)

def JsNumber.ofParts (negative : Bool) (p : NumberParts) : JsNumber :=
  .ofDigits negative (p.int ++ p.frac) (p.int.length + p.exp)

def parseNumber (cs : List Char) : Option (JsNumber × List Char) :=
  match cs with
  | '-' :: cs => (readParts cs).map fun (p, rest) => (.ofParts true p, rest)
  | cs => (readParts cs).map fun (p, rest) => (.ofParts false p, rest)

def isJsSpace (c : Char) : Bool :=
  [9, 10, 11, 12, 13, 32, 160, 5760, 8232, 8233, 8239, 8287, 12288, 65279].contains c.toNat ||
    (decide (8192 ≤ c.toNat) && decide (c.toNat ≤ 8202))

/-- The built-in `parseFloat`: the longest decimal literal after white space, or `none` where there
is none (`NaN`, `Infinity`). -/
def parseFloat (cs : List Char) : Option JsNumber :=
  let (negative, cs) := readSign (cs.dropWhile isJsSpace)
  let (int, cs) := readDigits cs
  let (frac, cs) :=
    match cs with
    | '.' :: rest => readDigits rest
    | _ => ([], cs)
  if int = [] ∧ frac = [] then none
  else some (.ofParts negative ⟨int, frac, ((readExp cs).map Prod.fst).getD 0⟩)

/-! ## Reading back a printed number -/

/-- The text does not go on with a character of a number. -/
def EndsNumber (cs : List Char) : Prop :=
  ∀ c ∈ cs.head?, digitVal? c = none ∧ c ≠ '.' ∧ c ≠ 'e' ∧ c ≠ 'E'

theorem EndsNumber.endsDigits {cs : List Char} (h : EndsNumber cs) : EndsDigits cs :=
  fun c hc => (h c hc).1

theorem readInt_printed {ds : List Digit} {cs : List Char} (hne : ds ≠ [])
    (hzero : ds.head? = some 0 → ds.length = 1) (h : EndsDigits cs) :
    readInt (ds.map digitChar ++ cs) = some (ds, cs) := by
  cases ds with
  | nil => exact absurd rfl hne
  | cons d ds =>
    rw [readInt, readDigits_printed _ h]
    refine if_neg fun ⟨hd, hds⟩ => hds ?_
    simpa using hzero (by rw [hd]; rfl)

theorem endsDigits_expText {exp : ℤ} {cs : List Char} (h : EndsNumber cs) :
    EndsDigits (NumberParts.expText exp ++ cs) := by
  unfold NumberParts.expText
  split
  · exact h.endsDigits
  · intro c hc
    obtain rfl : 'e' = c := by simpa using hc
    rfl

theorem endsDigits_fracText (ds : List Digit) {cs : List Char} (h : EndsDigits cs) :
    EndsDigits (NumberParts.fracText ds ++ cs) := by
  unfold NumberParts.fracText
  split
  · exact h
  · intro c hc
    obtain rfl : '.' = c := by simpa using hc
    rfl

theorem readFrac_printed {ds : List Digit} {cs : List Char} (h : EndsDigits cs)
    (hdot : cs.head? ≠ some '.') : readFrac (NumberParts.fracText ds ++ cs) = some (ds, cs) := by
  cases ds with
  | nil =>
    unfold readFrac
    split
    · rename_i hcs
      simp [NumberParts.fracText] at hcs
      simp [hcs] at hdot
    · rfl
  | cons d ds =>
    have htext : NumberParts.fracText (d :: ds) ++ cs = '.' :: ((d :: ds).map digitChar ++ cs) := by
      simp [NumberParts.fracText]
    rw [htext, readFrac, readDigits_printed _ h]

theorem readExp_printed {exp : ℤ} {cs : List Char} (h : EndsNumber cs) :
    readExp (NumberParts.expText exp ++ cs) = some (exp, cs) := by
  by_cases hexp : exp = 0
  · subst hexp
    have htext : NumberParts.expText 0 ++ cs = cs := rfl
    rw [htext]
    unfold readExp
    split
    · exact absurd rfl (h 'e' rfl).2.2.1
    · exact absurd rfl (h 'E' rfl).2.2.2
    · rfl
  · have hne : natDigits exp.natAbs ≠ [] := natDigits_ne_nil (by omega)
    have hread := readDigits_printed (natDigits exp.natAbs) h.endsDigits
    obtain ⟨e, es, hes⟩ := List.exists_cons_of_ne_nil hne
    have hval : (digitsNat (e :: es) : ℤ) = exp.natAbs := by
      rw [← hes, digitsNat_natDigits]
    rw [hes] at hread
    rcases lt_or_gt_of_ne hexp with hneg | hpos
    · have htext : NumberParts.expText exp ++ cs = 'e' :: '-' :: ((e :: es).map digitChar ++ cs) := by
        simp [NumberParts.expText, hexp, hes, not_lt.mpr hneg.le]
      rw [htext]
      simp only [readExp, readSign, hread, hval, if_true]
      congr 2
      omega
    · have htext : NumberParts.expText exp ++ cs = 'e' :: '+' :: ((e :: es).map digitChar ++ cs) := by
        simp [NumberParts.expText, hexp, hes, hpos]
      rw [htext]
      simp only [readExp, readSign, hread, hval, Bool.false_eq_true, if_false]
      congr 2
      omega

theorem expText_head (exp : ℤ) {cs : List Char} (h : EndsNumber cs) :
    (NumberParts.expText exp ++ cs).head? ≠ some '.' := by
  unfold NumberParts.expText
  split
  · intro hdot
    exact (h '.' hdot).2.1 rfl
  · simp

theorem readParts_text {p : NumberParts} {cs : List Char} (hp : p.WellFormed) (h : EndsNumber cs) :
    readParts (p.text ++ cs) = some (p, cs) := by
  have hexp : EndsDigits (NumberParts.expText p.exp ++ cs) := endsDigits_expText h
  have hint := readInt_printed hp.1 hp.2 (endsDigits_fracText p.frac hexp)
  have htext : p.text ++ cs
      = p.int.map digitChar ++ (NumberParts.fracText p.frac ++ (NumberParts.expText p.exp ++ cs)) := by
    simp [NumberParts.text]
  simp only [readParts, htext, hint, readFrac_printed hexp (expText_head p.exp h), readExp_printed h,
    Option.bind_eq_bind, Option.bind_some]

theorem Decimal.parts_wellFormed (d : Decimal) : d.parts.WellFormed := by
  obtain ⟨e, es, hes⟩ := List.exists_cons_of_ne_nil d.digits_ne_nil
  have he : e ≠ 0 := by simpa [hes] using d.head_ne_zero
  unfold Decimal.parts NumberParts.WellFormed
  dsimp only
  split
  · simp [hes, he]
  split
  · rename_i hpoint
    obtain ⟨n, hn⟩ : ∃ n, d.point.toNat = n + 1 := ⟨d.point.toNat - 1, by omega⟩
    simp [hes, he, hn]
  split
  · simp
  · simp [hes, he]

theorem Decimal.ofParts_parts (d : Decimal) : JsNumber.ofParts d.negative d.parts = .nonzero d := by
  have hpad := JsNumber.ofDigits_pad d
  obtain ⟨e, es, hes⟩ := List.exists_cons_of_ne_nil d.digits_ne_nil
  have hlen : 0 < d.digits.length := by simp [hes]
  unfold Decimal.parts JsNumber.ofParts
  dsimp only
  split
  · rename_i hpoint
    rw [← hpad 0 (d.point - d.digits.length).toNat]
    congr 1
    · simp
    · simp only [List.length_append, List.length_replicate]
      push_cast
      omega
  split
  · rename_i hlong hpoint
    rw [← hpad 0 0]
    congr 1
    · simp
    · rw [List.length_take, min_eq_left (by omega)]
      push_cast
      omega
  split
  · rename_i hsmall
    rw [← hpad ((-d.point).toNat + 1) 0]
    congr 1
    · simp [List.replicate_succ]
    · simp only [List.length_cons, List.length_nil]
      push_cast
      omega
  · rw [← hpad 0 0]
    congr 1
    · simp [hes]
    · rw [List.length_take, min_eq_left (by omega)]
      push_cast
      omega

/-- **Round trip.** A printed number, followed by a character that is none of a number's, is read
back as itself. -/
theorem parseNumber_text (x : JsNumber) {cs : List Char} (h : EndsNumber cs) :
    parseNumber (x.text ++ cs) = some (x, cs) := by
  cases x with
  | zero =>
    have hread := readParts_text (p := ⟨[0], [], 0⟩) ⟨by simp, by simp⟩ h
    exact congrArg (Option.map _) hread
  | nonzero d =>
    have hread := readParts_text d.parts_wellFormed h
    cases hneg : d.negative with
    | true =>
      have htext : (JsNumber.nonzero d).text ++ cs = '-' :: (d.parts.text ++ cs) := by
        simp [JsNumber.text, hneg]
      rw [htext, parseNumber, hread, Option.map_some]
      show some (JsNumber.ofParts true d.parts, cs) = some (.nonzero d, cs)
      rw [← hneg, d.ofParts_parts]
    | false =>
      have htext : (JsNumber.nonzero d).text ++ cs = d.parts.text ++ cs := by
        simp [JsNumber.text, hneg]
      rw [htext]
      unfold parseNumber
      split
      · rename_i hminus
        -- the text starts with a digit
        obtain ⟨e, es, hint⟩ := List.exists_cons_of_ne_nil d.parts_wellFormed.1
        simp only [NumberParts.text, hint, List.map_cons, List.cons_append, List.cons.injEq] at hminus
        have hdigit := digitVal?_digitChar e
        rw [hminus.1] at hdigit
        simp [digitVal?] at hdigit
      · rw [hread, Option.map_some]
        show some (JsNumber.ofParts false d.parts, cs) = some (.nonzero d, cs)
        rw [← hneg, d.ofParts_parts]

end SuperAi.Foundations
