import SuperAi.Foundations.JsonNumber
import Mathlib.Algebra.Order.Floor.Semifield
import Mathlib.Algebra.Order.Floor.Ring
import Mathlib.Data.Rat.Floor

/-! # Numerals and decimal fractions

The digits of a natural number without leading zeros are its numeral (`toDigits_digitsNat`). A decimal fraction in
plain notation has digits before and after the point; cut to a number of places, its digits are those of the fraction
rounded down to so many places (`digitsNat_scaled`).
-/
namespace SuperAi.Foundations
set_option autoImplicit false

/-! ## Digits -/

theorem digitsNat_append (ds es : List Digit) : digitsNat (ds ++ es) = digitsNat ds * 10 ^ es.length + digitsNat es := by
  rw [digitsNat, digitsNat, digitsNat, List.reverse_append, List.map_append, Nat.ofDigits_append, List.length_map,
    List.length_reverse]
  ring

theorem digitsNat_singleton (d : Digit) : digitsNat [d] = d := by
  simp [digitsNat]

theorem digitsNat_concat (ds : List Digit) (d : Digit) : digitsNat (ds ++ [d]) = 10 * digitsNat ds + d := by
  rw [digitsNat_append, digitsNat_singleton, List.length_singleton]
  ring

theorem digitsNat_lt (ds : List Digit) : digitsNat ds < 10 ^ ds.length := by
  induction ds with
  | nil => simp [digitsNat]
  | cons d ds ih =>
    have hd := d.isLt
    have hle : (d : ℕ) * 10 ^ ds.length ≤ 9 * 10 ^ ds.length := Nat.mul_le_mul_right _ (by omega)
    rw [digitsNat_cons, List.length_cons, pow_succ]
    omega

theorem digitsNat_pos {ds : List Digit} (hne : ds ≠ []) (hhead : ds.head? ≠ some 0) : 0 < digitsNat ds := by
  cases ds with
  | nil => exact absurd rfl hne
  | cons d ds =>
    have hd : (d : ℕ) ≠ 0 := by
      intro hzero
      exact hhead (congrArg some (Fin.ext hzero))
    have hpow : 0 < (d : ℕ) * 10 ^ ds.length := Nat.mul_pos (by omega) (by positivity)
    rw [digitsNat_cons]
    omega

theorem digitChar_eq (d : Digit) : digitChar d = Nat.digitChar d := by
  revert d
  decide

/-- Digits without a leading zero are the numeral of their number. -/
theorem toDigits_digitsNat {ds : List Digit} (hne : ds ≠ []) (hhead : ds.head? ≠ some 0) :
    Nat.toDigits 10 (digitsNat ds) = ds.map digitChar := by
  induction ds using List.reverseRecOn with
  | nil => exact absurd rfl hne
  | append_singleton ds d ih =>
    rw [digitsNat_concat, List.map_append, List.map_singleton, digitChar_eq]
    by_cases hnil : ds = []
    · subst hnil
      rw [List.map_nil, List.nil_append, show digitsNat [] = 0 from rfl, Nat.mul_zero, Nat.zero_add,
        Nat.toDigits_of_lt_base d.isLt]
    · rw [List.head?_append_of_ne_nil _ hnil] at hhead
      have hpos := digitsNat_pos hnil hhead
      have hd := d.isLt
      have hdiv : (10 * digitsNat ds + d) / 10 = digitsNat ds := by omega
      have hmod : (10 * digitsNat ds + d) % 10 = d := by omega
      rw [Nat.toDigits_of_base_le (by omega) (by omega), hdiv, hmod, ih hnil hhead]

def zeroDigit : Digit := ⟨0, Nat.zero_lt_succ 9⟩

theorem zeroDigit_eq : zeroDigit = 0 := rfl

/-- Leading zeros off, but for the last digit. -/
def dropZeros : List Digit → List Digit
  | d :: e :: ds => if d = zeroDigit then dropZeros (e :: ds) else d :: e :: ds
  | ds => ds

/-- Digits without their leading zeros are the numeral of their number. -/
theorem toDigits_dropZeros {ds : List Digit} (hne : ds ≠ []) :
    Nat.toDigits 10 (digitsNat ds) = (dropZeros ds).map digitChar := by
  induction ds with
  | nil => exact absurd rfl hne
  | cons d ds ih =>
    cases ds with
    | nil =>
      rw [digitsNat_singleton, Nat.toDigits_of_lt_base d.isLt, dropZeros, List.map_singleton, digitChar_eq]
      simp
    | cons e ds =>
      rw [dropZeros]
      by_cases hzero : d = zeroDigit
      · rw [if_pos hzero, ← ih (List.cons_ne_nil e ds), digitsNat_cons, hzero, zeroDigit_eq]
        simp
      · rw [if_neg hzero]
        exact toDigits_digitsNat (List.cons_ne_nil d _) (by simpa [zeroDigit_eq] using hzero)

/-! ## Decimal fractions -/

/-- The fraction with these digits before and after the point. -/
def fraction (int frac : List Digit) : ℚ := digitsNat (int ++ frac) / 10 ^ frac.length

/-- The digits up to so many places behind the point, with zeros where there are none. -/
def scaled (int frac : List Digit) (places : ℕ) : List Digit :=
  int ++ (frac.take places ++ List.replicate (places - (frac.take places).length) zeroDigit)

/-- Cutting a fraction to a number of places rounds it down. -/
theorem digitsNat_scaled (int frac : List Digit) (places : ℕ) :
    digitsNat (scaled int frac places) = ⌊fraction int frac * 10 ^ places⌋₊ := by
  by_cases hplaces : frac.length ≤ places
  · have hvalue : fraction int frac * 10 ^ places = ((digitsNat (int ++ frac) * 10 ^ (places - frac.length) : ℕ) : ℚ) := by
      rw [fraction, Nat.cast_mul, Nat.cast_pow, Nat.cast_ofNat, pow_sub₀ _ (by norm_num) hplaces]
      field_simp
    rw [hvalue, Nat.floor_natCast, scaled, List.take_of_length_le hplaces, ← List.append_assoc, zeroDigit_eq,
      digitsNat_append_zeros]
  · have hlength : (frac.take places).length = places := by
      rw [List.length_take]
      omega
    have hsplit : frac.length = places + (frac.drop places).length := by
      rw [List.length_drop]
      omega
    have hdigits : digitsNat (int ++ frac) =
        digitsNat (int ++ frac.take places) * 10 ^ (frac.drop places).length + digitsNat (frac.drop places) := by
      rw [← digitsNat_append, List.append_assoc, List.take_append_drop]
    have hvalue : fraction int frac * 10 ^ places = (digitsNat (int ++ frac) : ℚ) / (10 ^ (frac.drop places).length : ℕ) := by
      rw [fraction, hsplit, pow_add, Nat.cast_pow, Nat.cast_ofNat]
      field_simp
    rw [hvalue, Nat.floor_div_eq_div, hdigits, Nat.mul_comm, Nat.mul_add_div (by positivity),
      Nat.div_eq_of_lt (digitsNat_lt _), Nat.add_zero, scaled, hlength, Nat.sub_self, List.replicate_zero,
      List.append_nil]

end SuperAi.Foundations
