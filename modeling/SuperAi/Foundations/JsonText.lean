import SuperAi.Foundations.JsonNumber

/-! # JSON values and their text

`JsonValue.text` prints without white space and with the escapes of `JSON.stringify`; `parseJson` is
the grammar of JSON with white space, all escapes and repeated keys, of which the last one wins.
Reading back what was printed gives the value (`parseJson_text`), so the text of a value whose
objects have distinct keys determines it (`JsonValue.text_inj`). Strings are sequences of Unicode
scalar values; a lone surrogate has no counterpart.
-/
namespace SuperAi.Foundations
set_option autoImplicit false

inductive JsonValue
  | null
  | bool (b : Bool)
  | num (x : JsNumber)
  | str (s : String)
  | arr (elems : List JsonValue)
  | obj (members : List (String × JsonValue))

/-! ## Printing -/

def hexDigit (n : ℕ) : Char :=
  if n < 10 then Char.ofNat (48 + n) else Char.ofNat (87 + n)

/-- The escapes of a JSON string; control characters without one of their own are `\u00xx`. -/
def escapeChar (c : Char) : List Char :=
  if c = '"' then ['\\', '"']
  else if c = '\\' then ['\\', '\\']
  else if c = '\x08' then ['\\', 'b']
  else if c = '\x0c' then ['\\', 'f']
  else if c = '\n' then ['\\', 'n']
  else if c = '\r' then ['\\', 'r']
  else if c = '\t' then ['\\', 't']
  else if c.toNat < 32 then ['\\', 'u', '0', '0', hexDigit (c.toNat / 16), hexDigit (c.toNat % 16)]
  else [c]

def quoteJson (s : String) : List Char := '"' :: (s.toList.flatMap escapeChar ++ ['"'])

namespace JsonValue

mutual

def text : JsonValue → List Char
  | .null => "null".toList
  | .bool true => "true".toList
  | .bool false => "false".toList
  | .num x => x.text
  | .str s => quoteJson s
  | .arr [] => ['[', ']']
  | .arr (e :: es) => '[' :: (e.text ++ textElems es)
  | .obj [] => ['{', '}']
  | .obj (m :: ms) => '{' :: (textMember m ++ textMembers ms)

def textElems : List JsonValue → List Char
  | [] => [']']
  | e :: es => ',' :: (e.text ++ textElems es)

def textMember : String × JsonValue → List Char
  | (key, value) => quoteJson key ++ ':' :: value.text

def textMembers : List (String × JsonValue) → List Char
  | [] => ['}']
  | m :: ms => ',' :: (textMember m ++ textMembers ms)

end

/-- The keys of every object are distinct. -/
inductive WellFormed : JsonValue → Prop
  | null : WellFormed .null
  | bool (b : Bool) : WellFormed (.bool b)
  | num (x : JsNumber) : WellFormed (.num x)
  | str (s : String) : WellFormed (.str s)
  | arr {es : List JsonValue} (elems : ∀ e ∈ es, WellFormed e) : WellFormed (.arr es)
  | obj {ms : List (String × JsonValue)} (keys : (ms.map Prod.fst).Nodup)
      (members : ∀ m ∈ ms, WellFormed m.2) : WellFormed (.obj ms)

end JsonValue

/-! ## Reading -/

def isJsonSpace (c : Char) : Bool := c == ' ' || c == '\t' || c == '\n' || c == '\r'

def skipSpace (cs : List Char) : List Char := cs.dropWhile isJsonSpace

def hexVal? (c : Char) : Option ℕ :=
  if 48 ≤ c.toNat ∧ c.toNat < 58 then some (c.toNat - 48)
  else if 97 ≤ c.toNat ∧ c.toNat < 103 then some (c.toNat - 87)
  else if 65 ≤ c.toNat ∧ c.toNat < 71 then some (c.toNat - 55)
  else none

def readHex4 : List Char → Option (ℕ × List Char)
  | a :: b :: c :: d :: cs => do
    let a ← hexVal? a
    let b ← hexVal? b
    let c ← hexVal? c
    let d ← hexVal? d
    some (((a * 16 + b) * 16 + c) * 16 + d, cs)
  | _ => none

/-- What follows `\u`: a code point of the basic plane, or a surrogate pair. -/
def readUnicode (cs : List Char) : Option (Char × List Char) := do
  let (high, cs) ← readHex4 cs
  if high < 0xD800 ∨ 0xDFFF < high then some (Char.ofNat high, cs)
  else if high < 0xDC00 then
    match cs with
    | '\\' :: 'u' :: cs =>
      let (low, cs) ← readHex4 cs
      if 0xDC00 ≤ low ∧ low ≤ 0xDFFF then
        some (Char.ofNat (0x10000 + (high - 0xD800) * 0x400 + (low - 0xDC00)), cs)
      else none
    | _ => none
  else none

def readEscape : List Char → Option (Char × List Char)
  | '"' :: cs => some ('"', cs)
  | '\\' :: cs => some ('\\', cs)
  | '/' :: cs => some ('/', cs)
  | 'b' :: cs => some ('\x08', cs)
  | 'f' :: cs => some ('\x0c', cs)
  | 'n' :: cs => some ('\n', cs)
  | 'r' :: cs => some ('\r', cs)
  | 't' :: cs => some ('\t', cs)
  | 'u' :: cs => readUnicode cs
  | _ => none

def readChar : List Char → Option (Char × List Char)
  | [] => none
  | c :: cs =>
    if c = '\\' then readEscape cs
    else if c.toNat < 32 then none
    else some (c, cs)

/-- The characters of a string up to its closing quote. -/
def readChars : ℕ → List Char → Option (List Char × List Char)
  | 0, _ => none
  | n + 1, cs =>
    if cs.head? = some '"' then some ([], cs.tail)
    else (readChar cs).bind fun (c, cs) => (readChars n cs).map fun (s, rest) => (c :: s, rest)

def readString (n : ℕ) : List Char → Option (String × List Char)
  | '"' :: cs => (readChars n cs).map fun (s, rest) => (String.ofList s, rest)
  | _ => none

def readWord (word : String) (v : JsonValue) (cs : List Char) : Option (JsonValue × List Char) :=
  if word.toList <+: cs then some (v, cs.drop word.toList.length) else none

def readToken (token : Char) (cs : List Char) : Option (List Char) :=
  if (skipSpace cs).head? = some token then some (skipSpace cs).tail else none

/-- A repeated key keeps its place and takes the later value. -/
def insertMember (ms : List (String × JsonValue)) (m : String × JsonValue) :
    List (String × JsonValue) :=
  if m.1 ∈ ms.map Prod.fst then ms.map fun m' => if m'.1 = m.1 then m else m' else ms ++ [m]

mutual

/-- A value at the front of a text, and what follows it; the first argument bounds the number of
calls. -/
def parseValue : ℕ → List Char → Option (JsonValue × List Char)
  | 0, _ => none
  | n + 1, cs =>
    let cs := skipSpace cs
    match cs.head? with
    | some '"' => (readString n cs).map fun (s, rest) => (.str s, rest)
    | some '[' => parseElems n cs.tail |>.map fun (es, rest) => (.arr es, rest)
    | some '{' => parseMembers n cs.tail |>.map fun (ms, rest) => (.obj (ms.foldl insertMember []), rest)
    | some 'n' => readWord "null" .null cs
    | some 't' => readWord "true" (.bool true) cs
    | some 'f' => readWord "false" (.bool false) cs
    | _ => (parseNumber cs).map fun (x, rest) => (.num x, rest)

def parseElems : ℕ → List Char → Option (List JsonValue × List Char)
  | 0, _ => none
  | n + 1, cs =>
    match readToken ']' cs with
    | some rest => some ([], rest)
    | none => (parseValue n cs).bind fun (e, cs) =>
      (parseElemsTail n cs).map fun (es, rest) => (e :: es, rest)

def parseElemsTail : ℕ → List Char → Option (List JsonValue × List Char)
  | 0, _ => none
  | n + 1, cs =>
    match readToken ']' cs with
    | some rest => some ([], rest)
    | none => (readToken ',' cs).bind fun cs => (parseValue n cs).bind fun (e, cs) =>
      (parseElemsTail n cs).map fun (es, rest) => (e :: es, rest)

def parseMember : ℕ → List Char → Option ((String × JsonValue) × List Char)
  | 0, _ => none
  | n + 1, cs => (readString n (skipSpace cs)).bind fun (key, cs) => (readToken ':' cs).bind fun cs =>
      (parseValue n cs).map fun (value, rest) => ((key, value), rest)

def parseMembers : ℕ → List Char → Option (List (String × JsonValue) × List Char)
  | 0, _ => none
  | n + 1, cs =>
    match readToken '}' cs with
    | some rest => some ([], rest)
    | none => (parseMember n cs).bind fun (m, cs) =>
      (parseMembersTail n cs).map fun (ms, rest) => (m :: ms, rest)

def parseMembersTail : ℕ → List Char → Option (List (String × JsonValue) × List Char)
  | 0, _ => none
  | n + 1, cs =>
    match readToken '}' cs with
    | some rest => some ([], rest)
    | none => (readToken ',' cs).bind fun cs => (parseMember n cs).bind fun (m, cs) =>
      (parseMembersTail n cs).map fun (ms, rest) => (m :: ms, rest)

end

/-- `JSON.parse`; `none` where it throws. -/
def parseJson (cs : List Char) : Option JsonValue :=
  (parseValue (cs.length + 1) cs).bind fun (v, rest) => if skipSpace rest = [] then some v else none

/-! ## Reading back a string -/

theorem hexVal?_hexDigit {n : ℕ} (h : n < 16) : hexVal? (hexDigit n) = some n := by
  have hall : ∀ m : Fin 16, hexVal? (hexDigit m) = some m.val := by decide
  exact hall ⟨n, h⟩

/-- How a character is written: as an escape of two characters, by its code, or as itself. -/
theorem escapeChar_cases (c : Char) :
    (∃ x, escapeChar c = ['\\', x] ∧ 32 ≤ x.toNat ∧ ∀ cs, readChar ('\\' :: x :: cs) = some (c, cs)) ∨
      (c.toNat < 32 ∧ escapeChar c = ['\\', 'u', '0', '0', hexDigit (c.toNat / 16), hexDigit (c.toNat % 16)]) ∨
      (c ≠ '"' ∧ c ≠ '\\' ∧ 32 ≤ c.toNat ∧ escapeChar c = [c]) := by
  by_cases h1 : c = '"'
  · subst h1
    exact .inl ⟨'"', rfl, by decide, fun _ => rfl⟩
  by_cases h2 : c = '\\'
  · subst h2
    exact .inl ⟨'\\', rfl, by decide, fun _ => rfl⟩
  by_cases h3 : c = '\x08'
  · subst h3
    exact .inl ⟨'b', rfl, by decide, fun _ => rfl⟩
  by_cases h4 : c = '\x0c'
  · subst h4
    exact .inl ⟨'f', rfl, by decide, fun _ => rfl⟩
  by_cases h5 : c = '\n'
  · subst h5
    exact .inl ⟨'n', rfl, by decide, fun _ => rfl⟩
  by_cases h6 : c = '\r'
  · subst h6
    exact .inl ⟨'r', rfl, by decide, fun _ => rfl⟩
  by_cases h7 : c = '\t'
  · subst h7
    exact .inl ⟨'t', rfl, by decide, fun _ => rfl⟩
  right
  unfold escapeChar
  rw [if_neg h1, if_neg h2, if_neg h3, if_neg h4, if_neg h5, if_neg h6, if_neg h7]
  by_cases h8 : c.toNat < 32
  · exact .inl ⟨h8, if_pos h8⟩
  · exact .inr ⟨h1, h2, Nat.le_of_not_lt h8, if_neg h8⟩

theorem readChar_escapeChar (c : Char) (cs : List Char) :
    readChar (escapeChar c ++ cs) = some (c, cs) := by
  rcases escapeChar_cases c with ⟨x, hc, -, hread⟩ | ⟨hcode, hc⟩ | ⟨-, hslash, hcode, hc⟩
  · rw [hc]
    exact hread cs
  · have hdiv : hexVal? (hexDigit (c.toNat / 16)) = some (c.toNat / 16) := hexVal?_hexDigit (by omega)
    have hmod : hexVal? (hexDigit (c.toNat % 16)) = some (c.toNat % 16) := hexVal?_hexDigit (by omega)
    have hzero : hexVal? '0' = some 0 := by decide
    have hsum : ((0 * 16 + 0) * 16 + c.toNat / 16) * 16 + c.toNat % 16 = c.toNat := by omega
    have hhex : readHex4 ('0' :: '0' :: hexDigit (c.toNat / 16) :: hexDigit (c.toNat % 16) :: cs) =
        some (c.toNat, cs) := by
      simp only [readHex4, hdiv, hmod, hzero, Option.bind_eq_bind, Option.bind_some, hsum]
    rw [hc]
    show readUnicode ('0' :: '0' :: hexDigit (c.toNat / 16) :: hexDigit (c.toNat % 16) :: cs) = _
    simp only [readUnicode, hhex, Option.bind_eq_bind, Option.bind_some]
    rw [if_pos (by omega), Char.ofNat_toNat]
  · rw [hc, List.singleton_append, readChar, if_neg hslash, if_neg (Nat.not_lt_of_le hcode)]

theorem escapeChar_head (c : Char) (cs : List Char) : (escapeChar c ++ cs).head? ≠ some '"' := by
  rcases escapeChar_cases c with ⟨x, hc, -⟩ | ⟨-, hc⟩ | ⟨hquote, -, -, hc⟩
  · rw [hc]
    exact fun heq => absurd (Option.some.inj heq) (by decide)
  · rw [hc]
    exact fun heq => absurd (Option.some.inj heq) (by decide)
  · rw [hc]
    exact fun heq => hquote (Option.some.inj heq)

theorem length_le_escaped (s : List Char) : s.length ≤ (s.flatMap escapeChar).length := by
  induction s with
  | nil => exact Nat.le_refl 0
  | cons c s ih =>
    have hpos : 1 ≤ (escapeChar c).length := by
      rcases escapeChar_cases c with ⟨x, hc, -⟩ | ⟨-, hc⟩ | ⟨-, -, -, hc⟩ <;> simp [hc]
    simp only [List.length_cons, List.flatMap_cons, List.length_append]
    omega

theorem readChars_escaped (s : List Char) {n : ℕ} (h : s.length + 1 ≤ n) (cs : List Char) :
    readChars n (s.flatMap escapeChar ++ '"' :: cs) = some (s, cs) := by
  induction s generalizing n with
  | nil =>
    obtain ⟨m, rfl⟩ : ∃ m, n = m + 1 := ⟨n - 1, by simp at h; omega⟩
    simp [readChars]
  | cons c s ih =>
    obtain ⟨m, rfl⟩ : ∃ m, n = m + 1 := ⟨n - 1, by simp at h; omega⟩
    have hlen : s.length + 1 ≤ m := by simpa using h
    rw [List.flatMap_cons, List.append_assoc, readChars, if_neg (escapeChar_head c _)]
    simp only [readChar_escapeChar, Option.bind_some, ih hlen, Option.map_some]

theorem readString_quoteJson (s : String) {n : ℕ} (h : (quoteJson s).length ≤ n + 1) (cs : List Char) :
    readString n (quoteJson s ++ cs) = some (s, cs) := by
  have hlen := length_le_escaped s.toList
  simp only [quoteJson, List.length_cons, List.length_append, List.length_nil] at h
  have htext : quoteJson s ++ cs = '"' :: (s.toList.flatMap escapeChar ++ '"' :: cs) := by
    simp [quoteJson]
  rw [htext, readString, readChars_escaped s.toList (by omega)]
  simp only [Option.map_some, String.ofList_toList]

/-! ## Reading back a value -/

theorem skipSpace_cons {c : Char} (h : isJsonSpace c = false) (cs : List Char) :
    skipSpace (c :: cs) = c :: cs := by
  simp [skipSpace, h]

theorem readToken_self {c : Char} (h : isJsonSpace c = false) (cs : List Char) :
    readToken c (c :: cs) = some cs := by
  simp [readToken, skipSpace_cons h]

theorem readToken_other {c d : Char} (h : isJsonSpace c = false) (hne : c ≠ d) (cs : List Char) :
    readToken d (c :: cs) = none := by
  simp [readToken, skipSpace_cons h, hne]

theorem JsNumber.text_head (x : JsNumber) :
    ∃ c cs, x.text = c :: cs ∧ (c = '-' ∨ ∃ d, c = digitChar d) := by
  cases x with
  | zero => exact ⟨'0', [], rfl, .inr ⟨0, rfl⟩⟩
  | nonzero d =>
    obtain ⟨e, es, hint⟩ := List.exists_cons_of_ne_nil d.parts_wellFormed.1
    cases hneg : d.negative with
    | true => exact ⟨'-', _, by simp [JsNumber.text, hneg]; rfl, .inl rfl⟩
    | false =>
      have htext : (JsNumber.nonzero d).text = digitChar e :: (es.map digitChar ++
          (NumberParts.fracText d.parts.frac ++ NumberParts.expText d.parts.exp)) := by
        simp [JsNumber.text, hneg, NumberParts.text, hint]
      exact ⟨digitChar e, _, htext, .inr ⟨e, rfl⟩⟩

theorem JsonValue.text_head (v : JsonValue) :
    ∃ c cs, v.text = c :: cs ∧ isJsonSpace c = false ∧ c ≠ ']' := by
  have hdigit : ∀ d : Digit, isJsonSpace (digitChar d) = false ∧ digitChar d ≠ ']' := by decide
  cases v with
  | null => exact ⟨'n', _, rfl, by decide, by decide⟩
  | bool b =>
    cases b with
    | true => exact ⟨'t', _, rfl, by decide, by decide⟩
    | false => exact ⟨'f', _, rfl, by decide, by decide⟩
  | num x =>
    obtain ⟨c, cs, htext, hc | ⟨d, hc⟩⟩ := x.text_head
    · subst hc
      exact ⟨_, cs, by rw [text, htext], by decide, by decide⟩
    · subst hc
      exact ⟨_, cs, by rw [text, htext], (hdigit d).1, (hdigit d).2⟩
  | str s => exact ⟨'"', _, rfl, by decide, by decide⟩
  | arr es =>
    cases es with
    | nil => exact ⟨'[', _, rfl, by decide, by decide⟩
    | cons e es => exact ⟨'[', _, rfl, by decide, by decide⟩
  | obj ms =>
    cases ms with
    | nil => exact ⟨'{', _, rfl, by decide, by decide⟩
    | cons m ms => exact ⟨'{', _, rfl, by decide, by decide⟩

theorem JsonValue.text_pos (v : JsonValue) : 1 ≤ v.text.length := by
  obtain ⟨c, cs, htext, -⟩ := v.text_head
  simp [htext]

theorem JsonValue.textMember_head (m : String × JsonValue) :
    ∃ cs, JsonValue.textMember m = '"' :: cs := by
  obtain ⟨key, value⟩ := m
  exact ⟨_, rfl⟩

theorem JsonValue.textElems_pos (es : List JsonValue) : 1 ≤ (JsonValue.textElems es).length := by
  cases es <;> simp [JsonValue.textElems]

theorem JsonValue.textMembers_pos (ms : List (String × JsonValue)) :
    1 ≤ (JsonValue.textMembers ms).length := by
  cases ms <;> simp [JsonValue.textMembers]

theorem endsNumber_cons {c : Char} (h : c ∈ [',', ']', '}']) (cs : List Char) : EndsNumber (c :: cs) := by
  intro d hd
  obtain rfl : c = d := by simpa using hd
  simp only [List.mem_cons, List.not_mem_nil, or_false] at h
  rcases h with rfl | rfl | rfl <;> decide

theorem endsNumber_textElems (es : List JsonValue) (cs : List Char) :
    EndsNumber (JsonValue.textElems es ++ cs) := by
  cases es <;> exact endsNumber_cons (by simp) _

theorem endsNumber_textMembers (ms : List (String × JsonValue)) (cs : List Char) :
    EndsNumber (JsonValue.textMembers ms ++ cs) := by
  cases ms <;> exact endsNumber_cons (by simp) _

/-- The value is read back from the front of any text that does not go on as a number would. -/
def ReadsBack (v : JsonValue) : Prop :=
  ∀ (n : ℕ) (cs : List Char), v.text.length ≤ n → EndsNumber cs →
    parseValue n (v.text ++ cs) = some (v, cs)

theorem parseElemsTail_text {es : List JsonValue} (h : ∀ e ∈ es, ReadsBack e) (n : ℕ) (cs : List Char)
    (hn : (JsonValue.textElems es).length ≤ n) :
    parseElemsTail n (JsonValue.textElems es ++ cs) = some (es, cs) := by
  induction es generalizing n with
  | nil =>
    obtain ⟨m, rfl⟩ : ∃ m, n = m + 1 := ⟨n - 1, by simp [JsonValue.textElems] at hn; omega⟩
    simp only [parseElemsTail, JsonValue.textElems, List.cons_append, List.nil_append]
    rw [readToken_self (by decide)]
  | cons e es ih =>
    obtain ⟨m, rfl⟩ : ∃ m, n = m + 1 := ⟨n - 1, by simp [JsonValue.textElems] at hn; omega⟩
    simp only [JsonValue.textElems, List.length_cons, List.length_append] at hn
    have hvalue := h e List.mem_cons_self m (JsonValue.textElems es ++ cs) (by omega)
      (endsNumber_textElems es cs)
    have htail := ih (fun e' he' => h e' (List.mem_cons_of_mem e he')) m (by omega)
    simp only [JsonValue.textElems, List.cons_append, List.append_assoc, parseElemsTail]
    rw [readToken_other (by decide) (by decide), readToken_self (by decide)]
    simp only [Option.bind_some, hvalue, htail, Option.map_some]

theorem parseMember_text {m : String × JsonValue} (h : ReadsBack m.2) (n : ℕ) (cs : List Char)
    (hn : (JsonValue.textMember m).length ≤ n) (hcs : EndsNumber cs) :
    parseMember n (JsonValue.textMember m ++ cs) = some (m, cs) := by
  obtain ⟨key, value⟩ := m
  change ReadsBack value at h
  simp only [JsonValue.textMember, List.length_append, List.length_cons] at hn
  obtain ⟨m, rfl⟩ : ∃ m, n = m + 1 := ⟨n - 1, by omega⟩
  have hkey := readString_quoteJson key (n := m) (by omega) (':' :: (value.text ++ cs))
  have hspace : skipSpace (quoteJson key ++ ':' :: (value.text ++ cs)) =
      quoteJson key ++ ':' :: (value.text ++ cs) := skipSpace_cons (by decide) _
  have hvalue := h m cs (by omega) hcs
  simp only [JsonValue.textMember, List.append_assoc, List.cons_append, parseMember, hspace, hkey,
    Option.bind_some]
  rw [readToken_self (by decide)]
  simp only [Option.bind_some, hvalue, Option.map_some]

theorem parseMembersTail_text {ms : List (String × JsonValue)} (h : ∀ m ∈ ms, ReadsBack m.2) (n : ℕ)
    (cs : List Char) (hn : (JsonValue.textMembers ms).length ≤ n) :
    parseMembersTail n (JsonValue.textMembers ms ++ cs) = some (ms, cs) := by
  induction ms generalizing n with
  | nil =>
    obtain ⟨m, rfl⟩ : ∃ m, n = m + 1 := ⟨n - 1, by simp [JsonValue.textMembers] at hn; omega⟩
    simp only [parseMembersTail, JsonValue.textMembers, List.cons_append, List.nil_append]
    rw [readToken_self (by decide)]
  | cons e es ih =>
    obtain ⟨m, rfl⟩ : ∃ m, n = m + 1 := ⟨n - 1, by simp [JsonValue.textMembers] at hn; omega⟩
    simp only [JsonValue.textMembers, List.length_cons, List.length_append] at hn
    have hmember := parseMember_text (h e List.mem_cons_self) m (JsonValue.textMembers es ++ cs)
      (by omega) (endsNumber_textMembers es cs)
    have htail := ih (fun e' he' => h e' (List.mem_cons_of_mem e he')) m (by omega)
    simp only [JsonValue.textMembers, List.cons_append, List.append_assoc, parseMembersTail]
    rw [readToken_other (by decide) (by decide), readToken_self (by decide)]
    simp only [Option.bind_some, hmember, htail, Option.map_some]

theorem foldl_insertMember (acc ms : List (String × JsonValue))
    (h : ((acc ++ ms).map Prod.fst).Nodup) : ms.foldl insertMember acc = acc ++ ms := by
  induction ms generalizing acc with
  | nil => simp
  | cons m ms ih =>
    have hfresh : m.1 ∉ acc.map Prod.fst := by
      rw [List.map_append, List.map_cons] at h
      exact fun hmem => (List.nodup_append.mp h).2.2 _ hmem _ List.mem_cons_self rfl
    have hstep : insertMember acc m = acc ++ [m] := if_neg hfresh
    rw [List.foldl_cons, hstep, ih _ (by simpa using h), List.append_assoc, List.singleton_append]

theorem readsBack_arr {es : List JsonValue} (h : ∀ e ∈ es, ReadsBack e) : ReadsBack (.arr es) := by
  intro n cs hn _
  cases es with
  | nil =>
    obtain ⟨m, rfl⟩ : ∃ m, n = m + 2 := ⟨n - 2, by simp [JsonValue.text] at hn; omega⟩
    simp [JsonValue.text, parseValue, skipSpace_cons, parseElems, readToken_self, isJsonSpace]
  | cons e es =>
    simp only [JsonValue.text, List.length_cons, List.length_append] at hn
    obtain ⟨c, text, htext, hspace, hclose⟩ := e.text_head
    have hpos := e.text_pos
    have htailpos := JsonValue.textElems_pos es
    obtain ⟨m, rfl⟩ : ∃ m, n = m + 2 := ⟨n - 2, by omega⟩
    have hvalue := h e List.mem_cons_self m (JsonValue.textElems es ++ cs) (by omega)
      (endsNumber_textElems es cs)
    have htail := parseElemsTail_text (fun e' he' => h e' (List.mem_cons_of_mem e he')) m cs (by omega)
    have htoken : readToken ']' (e.text ++ (JsonValue.textElems es ++ cs)) = none := by
      rw [htext]
      exact readToken_other hspace hclose _
    have hskip : skipSpace ('[' :: (e.text ++ (JsonValue.textElems es ++ cs))) =
        '[' :: (e.text ++ (JsonValue.textElems es ++ cs)) := skipSpace_cons (by decide) _
    simp only [JsonValue.text, List.cons_append, List.append_assoc, parseValue, hskip, List.head?_cons,
      List.tail_cons, parseElems, htoken, hvalue, htail, Option.bind_some, Option.map_some]

theorem readsBack_obj {ms : List (String × JsonValue)} (hkeys : (ms.map Prod.fst).Nodup)
    (h : ∀ m ∈ ms, ReadsBack m.2) : ReadsBack (.obj ms) := by
  intro n cs hn _
  have hinsert := foldl_insertMember [] ms (by simpa using hkeys)
  rw [List.nil_append] at hinsert
  cases ms with
  | nil =>
    obtain ⟨m, rfl⟩ : ∃ m, n = m + 2 := ⟨n - 2, by simp [JsonValue.text] at hn; omega⟩
    simp [JsonValue.text, parseValue, skipSpace_cons, parseMembers, readToken_self, isJsonSpace]
  | cons m ms =>
    simp only [JsonValue.text, List.length_cons, List.length_append] at hn
    have hmspos := JsonValue.textMembers_pos ms
    obtain ⟨rest, hrest⟩ := JsonValue.textMember_head m
    have hpos : 1 ≤ (JsonValue.textMember m).length := by simp [hrest]
    obtain ⟨k, rfl⟩ : ∃ k, n = k + 2 := ⟨n - 2, by omega⟩
    have hmember := parseMember_text (h m List.mem_cons_self) k (JsonValue.textMembers ms ++ cs)
      (by omega) (endsNumber_textMembers ms cs)
    have htail := parseMembersTail_text (fun m' hm' => h m' (List.mem_cons_of_mem m hm')) k cs (by omega)
    have htoken : readToken '}' (JsonValue.textMember m ++ (JsonValue.textMembers ms ++ cs)) = none := by
      rw [hrest]
      exact readToken_other (by decide) (by decide) _
    have hskip : skipSpace ('{' :: (JsonValue.textMember m ++ (JsonValue.textMembers ms ++ cs))) =
        '{' :: (JsonValue.textMember m ++ (JsonValue.textMembers ms ++ cs)) :=
      skipSpace_cons (by decide) _
    simp only [JsonValue.text, List.cons_append, List.append_assoc, parseValue, hskip, List.head?_cons,
      List.tail_cons, parseMembers, htoken, hmember, htail, Option.bind_some, Option.map_some, hinsert]

theorem readsBack_num (x : JsNumber) : ReadsBack (.num x) := by
  intro n cs hn hcs
  obtain ⟨c, text, htext, hc⟩ := x.text_head
  obtain ⟨m, rfl⟩ : ∃ m, n = m + 1 := ⟨n - 1, by simp [JsonValue.text, htext] at hn; omega⟩
  have hread := parseNumber_text x hcs
  have hhead : isJsonSpace c = false ∧ c ∉ ['"', '[', '{', 'n', 't', 'f'] := by
    have hdigit : ∀ d : Digit, isJsonSpace (digitChar d) = false ∧
        digitChar d ∉ ['"', '[', '{', 'n', 't', 'f'] := by decide
    rcases hc with rfl | ⟨d, rfl⟩
    · decide
    · exact hdigit d
  simp only [List.mem_cons, List.not_mem_nil, or_false, not_or] at hhead
  have hskip : skipSpace (x.text ++ cs) = x.text ++ cs := by
    rw [htext]
    exact skipSpace_cons hhead.1 _
  simp only [JsonValue.text, parseValue, hskip]
  rw [htext] at hread ⊢
  simp only [List.cons_append, List.head?_cons] at hread ⊢
  split
  all_goals simp_all

theorem readsBack_str (s : String) : ReadsBack (.str s) := by
  intro n cs hn _
  obtain ⟨m, rfl⟩ : ∃ m, n = m + 1 := ⟨n - 1, by simp [JsonValue.text, quoteJson] at hn; omega⟩
  have hread := readString_quoteJson s hn cs
  have hskip : skipSpace (quoteJson s ++ cs) = quoteJson s ++ cs := skipSpace_cons (by decide) _
  have hhead : (quoteJson s ++ cs).head? = some '"' := rfl
  simp only [JsonValue.text, parseValue, hskip, hhead, hread, Option.map_some]

theorem readsBack_word {v : JsonValue} (word : String) (htext : v.text = word.toList)
    (hne : word.toList ≠ []) (hparse : ∀ n cs, parseValue (n + 1) (word.toList ++ cs) =
      readWord word v (word.toList ++ cs)) : ReadsBack v := by
  intro n cs hn _
  have hpos := List.length_pos_iff.mpr hne
  rw [htext] at hn ⊢
  obtain ⟨m, rfl⟩ : ∃ m, n = m + 1 := ⟨n - 1, by omega⟩
  simp [hparse, readWord]

theorem JsonValue.WellFormed.readsBack {v : JsonValue} (h : v.WellFormed) : ReadsBack v := by
  induction h with
  | null => exact readsBack_word "null" rfl (by decide) (fun _ _ => rfl)
  | bool b =>
    cases b with
    | true => exact readsBack_word "true" rfl (by decide) (fun _ _ => rfl)
    | false => exact readsBack_word "false" rfl (by decide) (fun _ _ => rfl)
  | num x => exact readsBack_num x
  | str s => exact readsBack_str s
  | arr _ ih => exact readsBack_arr ih
  | obj hkeys _ ih => exact readsBack_obj hkeys ih

/-- **Round trip.** The printed text of a well-formed value is parsed as that value. -/
theorem parseJson_text {v : JsonValue} (h : v.WellFormed) : parseJson v.text = some v := by
  have hread := h.readsBack (v.text.length + 1) [] (by omega) (fun c hc => by cases hc)
  rw [List.append_nil] at hread
  rw [parseJson, hread, Option.bind_some]
  exact if_pos rfl

theorem JsonValue.text_inj {v w : JsonValue} (hv : v.WellFormed) (hw : w.WellFormed) :
    v.text = w.text ↔ v = w := by
  constructor
  · intro htext
    have hparse := parseJson_text hv
    rw [htext, parseJson_text hw] at hparse
    exact (Option.some.inj hparse).symm
  · intro heq
    rw [heq]

/-! ## A printed value is one line -/

theorem hexDigit_printable {n : ℕ} (h : n < 16) : 32 ≤ (hexDigit n).toNat := by
  have hall : ∀ m : Fin 16, 32 ≤ (hexDigit m).toNat := by decide
  exact hall ⟨n, h⟩

theorem escapeChar_printable (c : Char) : ∀ d ∈ escapeChar c, 32 ≤ d.toNat := by
  intro d hd
  rcases escapeChar_cases c with ⟨x, hc, hx, -⟩ | ⟨hcode, hc⟩ | ⟨-, -, hcode, hc⟩
  · rw [hc] at hd
    rcases List.mem_pair.mp hd with rfl | rfl
    · decide
    · exact hx
  · simp only [hc, List.mem_cons, List.not_mem_nil, or_false] at hd
    rcases hd with hd | hd | hd | hd | hd | hd <;> rw [hd]
    · decide
    · decide
    · decide
    · decide
    · exact hexDigit_printable (by omega)
    · exact hexDigit_printable (by omega)
  · rw [hc] at hd
    obtain rfl := List.mem_singleton.mp hd
    exact hcode

theorem quoteJson_printable (s : String) : ∀ c ∈ quoteJson s, 32 ≤ c.toNat := by
  intro c hc
  simp only [quoteJson, List.mem_cons, List.mem_append, List.mem_flatMap, List.not_mem_nil, or_false] at hc
  rcases hc with rfl | ⟨d, -, hd⟩ | rfl
  · decide
  · exact escapeChar_printable d c hd
  · decide

theorem digits_printable (ds : List Digit) : ∀ c ∈ ds.map digitChar, 32 ≤ c.toNat := by
  have hdigit : ∀ d : Digit, 32 ≤ (digitChar d).toNat := by decide
  intro c hc
  obtain ⟨d, -, rfl⟩ := List.mem_map.mp hc
  exact hdigit d

theorem JsNumber.text_printable (x : JsNumber) : ∀ c ∈ x.text, 32 ≤ c.toNat := by
  intro c hc
  cases x with
  | zero =>
    obtain rfl : c = '0' := by simpa [JsNumber.text] using hc
    decide
  | nonzero d =>
    simp only [JsNumber.text, NumberParts.text, List.mem_append] at hc
    rcases hc with hc | hc | hc | hc
    · cases hneg : d.negative with
      | true =>
        obtain rfl : c = '-' := by simpa [hneg] using hc
        decide
      | false => simp [hneg] at hc
    · exact digits_printable _ c hc
    · unfold NumberParts.fracText at hc
      split_ifs at hc
      · cases hc
      · rcases List.mem_cons.mp hc with rfl | hc
        · decide
        · exact digits_printable _ c hc
    · unfold NumberParts.expText at hc
      split_ifs at hc
      · cases hc
      all_goals
        simp only [List.mem_cons] at hc
        rcases hc with rfl | rfl | hc
        · decide
        · decide
        · exact digits_printable _ c hc

namespace JsonValue

theorem printable_of_all {cs : List Char} (h : cs.all (fun c => decide (32 ≤ c.toNat)) = true) :
    ∀ c ∈ cs, 32 ≤ c.toNat := fun c hc => of_decide_eq_true (List.all_eq_true.mp h c hc)

mutual

theorem text_printable : ∀ v : JsonValue, ∀ c ∈ v.text, 32 ≤ c.toNat
  | .null => printable_of_all (by decide)
  | .bool true => printable_of_all (by decide)
  | .bool false => printable_of_all (by decide)
  | .num x => x.text_printable
  | .str s => quoteJson_printable s
  | .arr [] => printable_of_all (by decide)
  | .arr (e :: es) => by
    intro c hc
    simp only [text, List.mem_cons, List.mem_append] at hc
    rcases hc with rfl | hc | hc
    · decide
    · exact text_printable e c hc
    · exact textElems_printable es c hc
  | .obj [] => printable_of_all (by decide)
  | .obj (m :: ms) => by
    intro c hc
    simp only [text, List.mem_cons, List.mem_append] at hc
    rcases hc with rfl | hc | hc
    · decide
    · exact textMember_printable m c hc
    · exact textMembers_printable ms c hc

theorem textElems_printable : ∀ es : List JsonValue, ∀ c ∈ textElems es, 32 ≤ c.toNat
  | [] => printable_of_all (by decide)
  | e :: es => by
    intro c hc
    simp only [textElems, List.mem_cons, List.mem_append] at hc
    rcases hc with rfl | hc | hc
    · decide
    · exact text_printable e c hc
    · exact textElems_printable es c hc

theorem textMember_printable : ∀ m : String × JsonValue, ∀ c ∈ textMember m, 32 ≤ c.toNat
  | (key, value) => by
    intro c hc
    simp only [textMember, List.mem_cons, List.mem_append] at hc
    rcases hc with hc | rfl | hc
    · exact quoteJson_printable key c hc
    · decide
    · exact text_printable value c hc

theorem textMembers_printable : ∀ ms : List (String × JsonValue), ∀ c ∈ textMembers ms, 32 ≤ c.toNat
  | [] => printable_of_all (by decide)
  | m :: ms => by
    intro c hc
    simp only [textMembers, List.mem_cons, List.mem_append] at hc
    rcases hc with rfl | hc | hc
    · decide
    · exact textMember_printable m c hc
    · exact textMembers_printable ms c hc

end

end JsonValue
end SuperAi.Foundations
