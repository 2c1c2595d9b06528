import SuperAi.Foundations.KeyValue
import SuperAi.Foundations.JsonText

/-! # JSON values as JavaScript sees them

Data that comes from `JSON.parse` is used without a check: a property of it may be missing, a string
may be made of whatever it holds, and a condition asks whether it is truthy.
-/
namespace SuperAi.Foundations
set_option autoImplicit false

mutual

/-- An element of an array as a string, where `null` is empty. -/
def coerceElem : JsonValue → List Char
  | .null => []
  | .bool true => "true".toList
  | .bool false => "false".toList
  | .num x => x.text
  | .str s => s.toList
  | .arr [] => []
  | .arr (e :: es) => coerceElem e ++ coerceElems es
  | .obj _ => "[object Object]".toList

def coerceElems : List JsonValue → List Char
  | [] => []
  | e :: es => ',' :: (coerceElem e ++ coerceElems es)

end

/-- The string that a template or `JSON.parse` makes of a value; `none` is `undefined`. -/
def coerce : Option JsonValue → List Char
  | none => "undefined".toList
  | some .null => "null".toList
  | some v => coerceElem v

def property (v : JsonValue) (key : String) : Option JsonValue :=
  match v with
  | .obj ms => KeyValue.get ms key
  | _ => none

@[simp] theorem coerce_str (s : String) : coerce (some (.str s)) = s.toList := rfl

def truthy : Option JsonValue → Bool
  | none => false
  | some .null => false
  | some (.bool b) => b
  | some (.num x) => x != .zero
  | some (.str s) => s != ""
  | some _ => true

@[simp] theorem truthy_str (s : String) : truthy (some (.str s)) = (s != "") := rfl

/-- The right side of `??`, where the left one is `null` or `undefined`. -/
def orElseNullish : Option JsonValue → Option JsonValue → Option JsonValue
  | none, other => other
  | some .null, other => other
  | some v, _ => some v

/-! ## The built-in `Number` -/

/-- The base that a literal such as `0x1f` is written in, and its digits. -/
def readRadix : List Char → Option (ℕ × List Char)
  | '0' :: 'x' :: cs | '0' :: 'X' :: cs => some (16, cs)
  | '0' :: 'o' :: cs | '0' :: 'O' :: cs => some (8, cs)
  | '0' :: 'b' :: cs | '0' :: 'B' :: cs => some (2, cs)
  | _ => none

def radixNumber (base : ℕ) (cs : List Char) : Option ℚ :=
  match cs.mapM fun c => (hexVal? c).filter (· < base) with
  | none | some [] => none
  | some ds => some (Nat.ofDigits base ds.reverse : ℕ)

def decimalNumber (cs : List Char) : Option ℚ :=
  let (negative, cs) := readSign cs
  let (int, cs) := readDigits cs
  let (frac, cs) :=
    match cs with
    | '.' :: rest => readDigits rest
    | _ => ([], cs)
  match readExp cs with
  | some (exp, []) => if int = [] ∧ frac = [] then none else some (JsNumber.ofParts negative ⟨int, frac, exp⟩).toRat
  | _ => none

/-- The number that a whole text stands for, if it is finite; white space around it does not count. -/
def stringNumber (cs : List Char) : Option ℚ :=
  let cs := (cs.dropWhile isJsSpace).rdropWhile isJsSpace
  if cs = [] then some 0
  else
    match readRadix cs with
    | some (base, digits) => radixNumber base digits
    | none => decimalNumber cs

/-- `Number(v)`, if it is finite. -/
def finiteNumber : JsonValue → Option ℚ
  | .null => some 0
  | .bool b => some (if b then 1 else 0)
  | .num x => some x.toRat
  | v => stringNumber (coerceElem v)

end SuperAi.Foundations
