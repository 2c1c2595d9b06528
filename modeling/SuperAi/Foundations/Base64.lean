import Mathlib.Data.List.Basic
import Mathlib.Tactic.Basic

/-! # Base64

Bytes as text, three bytes as four digits of six bits, with `=` for what is missing in the last group.
The reader skips characters that are not digits, takes the digits of the URL alphabet as well, and stops
at `=`; it reads back what was written (`fromBase64_toBase64`).
-/
namespace SuperAi.Foundations
set_option autoImplicit false

def base64Char (n : ℕ) : Char :=
  if n < 26 then Char.ofNat (65 + n)
  else if n < 52 then Char.ofNat (71 + n)
  else if n < 62 then Char.ofNat (n - 4)
  else if n = 62 then '+'
  else '/'

def base64Value (c : Char) : Option ℕ :=
  if 'A' ≤ c ∧ c ≤ 'Z' then some (c.toNat - 65)
  else if 'a' ≤ c ∧ c ≤ 'z' then some (c.toNat - 71)
  else if '0' ≤ c ∧ c ≤ '9' then some (c.toNat + 4)
  else if c = '+' ∨ c = '-' then some 62
  else if c = '/' ∨ c = '_' then some 63
  else none

/-- The digits of a list of bytes. -/
def sextets : List UInt8 → List ℕ
  | a :: b :: c :: rest =>
    a.toNat / 4 :: (a.toNat % 4 * 16 + b.toNat / 16) :: (b.toNat % 16 * 4 + c.toNat / 64) :: c.toNat % 64 ::
      sextets rest
  | [a, b] => [a.toNat / 4, a.toNat % 4 * 16 + b.toNat / 16, b.toNat % 16 * 4]
  | [a] => [a.toNat / 4, a.toNat % 4 * 16]
  | [] => []

/-- The bytes of a list of digits; what is left over of the last group is dropped. -/
def octets : List ℕ → List UInt8
  | w :: x :: y :: z :: rest =>
    UInt8.ofNat (w * 4 + x / 16) :: UInt8.ofNat (x % 16 * 16 + y / 4) :: UInt8.ofNat (y % 4 * 64 + z) :: octets rest
  | [w, x, y] => [UInt8.ofNat (w * 4 + x / 16), UInt8.ofNat (x % 16 * 16 + y / 4)]
  | [w, x] => [UInt8.ofNat (w * 4 + x / 16)]
  | _ => []

def toBase64 (bytes : List UInt8) : String :=
  String.ofList ((sextets bytes).map base64Char ++ List.replicate ((3 - bytes.length % 3) % 3) '=')

def fromBase64 (text : String) : List UInt8 :=
  octets ((text.toList.takeWhile (· ≠ '=')).filterMap base64Value)

theorem byte_of_sum (a : UInt8) (n : ℕ) (h : n = a.toNat) : UInt8.ofNat n = a := by
  rw [h, UInt8.ofNat_toNat]

theorem octets_sextets (bytes : List UInt8) : octets (sextets bytes) = bytes := by
  fun_induction sextets bytes with
  | case1 a b c rest ih =>
    have ha := a.toNat_lt
    have hb := b.toNat_lt
    have hc := c.toNat_lt
    rw [octets, ih, byte_of_sum a _ (by omega), byte_of_sum b _ (by omega), byte_of_sum c _ (by omega)]
  | case2 a b =>
    have ha := a.toNat_lt
    have hb := b.toNat_lt
    rw [octets, byte_of_sum a _ (by omega), byte_of_sum b _ (by omega)]
  | case3 a =>
    have ha := a.toNat_lt
    rw [octets, byte_of_sum a _ (by omega)]
  | case4 => rfl

theorem sextets_lt (bytes : List UInt8) : ∀ n ∈ sextets bytes, n < 64 := by
  fun_induction sextets bytes with
  | case1 a b c rest ih =>
    have ha := a.toNat_lt
    have hb := b.toNat_lt
    have hc := c.toNat_lt
    intro n hn
    simp only [List.mem_cons] at hn
    rcases hn with rfl | rfl | rfl | rfl | hrest
    · omega
    · omega
    · omega
    · omega
    · exact ih n hrest
  | case2 a b =>
    have ha := a.toNat_lt
    have hb := b.toNat_lt
    simp only [List.mem_cons, List.not_mem_nil, or_false, forall_eq_or_imp, forall_eq]
    omega
  | case3 a =>
    have ha := a.toNat_lt
    simp only [List.mem_cons, List.not_mem_nil, or_false, forall_eq_or_imp, forall_eq]
    omega
  | case4 => simp

theorem base64Value_base64Char : ∀ n < 64, base64Value (base64Char n) = some n ∧ base64Char n ≠ '=' := by
  decide

theorem takeWhile_map_base64Char (digits : List ℕ) (pad : ℕ) (h : ∀ n ∈ digits, n < 64) :
    (digits.map base64Char ++ List.replicate pad '=').takeWhile (· ≠ '=') = digits.map base64Char := by
  induction digits with
  | nil =>
    cases pad with
    | zero => rfl
    | succ pad => simp [List.replicate_succ]
  | cons n digits ih =>
    have hn := (base64Value_base64Char n (h n List.mem_cons_self)).2
    have hrest := ih fun m hm => h m (List.mem_cons_of_mem n hm)
    rw [List.map_cons, List.cons_append, List.takeWhile_cons, if_pos (by simpa using hn), hrest]

theorem filterMap_map_base64Char (digits : List ℕ) (h : ∀ n ∈ digits, n < 64) :
    (digits.map base64Char).filterMap base64Value = digits := by
  induction digits with
  | nil => rfl
  | cons n digits ih =>
    have hn := (base64Value_base64Char n (h n List.mem_cons_self)).1
    rw [List.map_cons, List.filterMap_cons_some hn, ih fun m hm => h m (List.mem_cons_of_mem n hm)]

theorem fromBase64_toBase64 (bytes : List UInt8) : fromBase64 (toBase64 bytes) = bytes := by
  have hlt := sextets_lt bytes
  rw [fromBase64, toBase64, String.toList_ofList, takeWhile_map_base64Char _ _ hlt, filterMap_map_base64Char _ hlt,
    octets_sextets]

example : toBase64 [77, 97] = "TWE=" := by decide +kernel

/-! ## Well-formed texts -/

def isBase64Digit (c : Char) : Bool := c.isAlphanum || c == '+' || c == '/'

/-- Groups of four digits, with `=` for what is missing in the last one. -/
def isBase64 (text : String) : Bool :=
  let digits := text.toList.takeWhile isBase64Digit
  let rest := text.toList.dropWhile isBase64Digit
  (rest == [] && digits.length % 4 == 0) || (rest == ['=', '='] && digits.length % 4 == 2) ||
    (rest == ['='] && digits.length % 4 == 3)

theorem length_sextets (bytes : List UInt8) : (sextets bytes).length = bytes.length + (bytes.length + 2) / 3 := by
  fun_induction sextets bytes with
  | case1 a b c rest ih =>
    simp only [List.length_cons, ih]
    omega
  | case2 a b => simp
  | case3 a => simp
  | case4 => rfl

theorem isBase64Digit_base64Char : ∀ n < 64, isBase64Digit (base64Char n) = true := by decide

theorem isBase64_toBase64 (bytes : List UInt8) : isBase64 (toBase64 bytes) = true := by
  have hdigits : ∀ c ∈ (sextets bytes).map base64Char, isBase64Digit c = true := by
    intro c hc
    obtain ⟨n, hn, rfl⟩ := List.mem_map.mp hc
    exact isBase64Digit_base64Char n (sextets_lt bytes n hn)
  have hpad : ∀ pad, (List.replicate pad '=').takeWhile isBase64Digit = [] ∧
      (List.replicate pad '=').dropWhile isBase64Digit = List.replicate pad '=' := by
    intro pad
    cases pad with
    | zero => exact ⟨rfl, rfl⟩
    | succ pad => exact ⟨rfl, rfl⟩
  have hlength := length_sextets bytes
  unfold isBase64 toBase64
  dsimp only
  rw [String.toList_ofList, List.takeWhile_append_of_pos hdigits, List.dropWhile_append_of_pos hdigits, (hpad _).1,
    (hpad _).2, List.append_nil, List.length_map]
  have hcases : bytes.length % 3 = 0 ∨ bytes.length % 3 = 1 ∨ bytes.length % 3 = 2 := by omega
  obtain h0 | h1 | h2 := hcases
  · have hfour : (sextets bytes).length % 4 = 0 := by omega
    simp [h0, hfour]
  · have hfour : (sextets bytes).length % 4 = 2 := by omega
    simp [h1, hfour]
  · have hfour : (sextets bytes).length % 4 = 3 := by omega
    simp [h2, hfour]

theorem toBase64_ne_empty {bytes : List UInt8} (h : bytes ≠ []) : toBase64 bytes ≠ "" := by
  intro hempty
  have hread := fromBase64_toBase64 bytes
  rw [hempty] at hread
  exact h hread.symm

end SuperAi.Foundations
