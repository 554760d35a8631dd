import MacpControlPlane.Lib.Js

/-!
# `JSON.stringify` and `JSON.parse`

Texts are lists of characters.  `parse` is the recursive descent over the JSON grammar, with a bound on the depth and
on the length of what it reads; a text is never longer than the bound that `parse` gives it.

Strings are sequences of characters here, so that an escaped surrogate that is not part of a pair is read as U+FFFD.
-/

namespace JsonText

open Js

variable {N : Type}

/-! ### String literals -/

/-- The characters with a short escape, and its letter. -/
def shortEscapes : List (Char × Char) :=
  [('"', '"'), ('\\', '\\'), (Char.ofNat 8, 'b'), (Char.ofNat 12, 'f'), ('\n', 'n'), ('\r', 'r'), ('\t', 't')]

def hexDigit (n : Nat) : Char := if n < 10 then Char.ofNat (48 + n) else Char.ofNat (87 + n)

def escapeChar (c : Char) : List Char :=
  match shortEscapes.lookup c with
  | some letter => ['\\', letter]
  | none => if c.toNat < 32 then ['\\', 'u', '0', '0', hexDigit (c.toNat / 16), hexDigit (c.toNat % 16)] else [c]

def quote (s : String) : List Char := '"' :: (s.toList.flatMap escapeChar ++ ['"'])

def hexValue (c : Char) : Option Nat :=
  if '0' ≤ c ∧ c ≤ '9' then some (c.toNat - 48)
  else if 'a' ≤ c ∧ c ≤ 'f' then some (c.toNat - 87)
  else if 'A' ≤ c ∧ c ≤ 'F' then some (c.toNat - 55)
  else none

/-- The four hexadecimal digits of a code unit. -/
def codeUnit : List Char → Option (Nat × List Char)
  | a :: b :: c :: d :: rest => do
    return ((((← hexValue a) * 16 + (← hexValue b)) * 16 + (← hexValue c)) * 16 + (← hexValue d), rest)
  | _ => none

/-- A second escape `\u` that completes the surrogate pair. -/
def lowSurrogate : List Char → Option (Nat × List Char)
  | '\\' :: 'u' :: rest => (codeUnit rest).filter fun (unit, _) => 0xDC00 ≤ unit && unit < 0xE000
  | _ => none

/-- What follows `\u`. -/
def unicodeEscape (text : List Char) : Option (Char × List Char) :=
  (codeUnit text).map fun (unit, rest) =>
    if 0xD800 ≤ unit ∧ unit < 0xDC00 then
      match lowSurrogate rest with
      | some (low, rest) => (Char.ofNat (0x10000 + (unit - 0xD800) * 0x400 + (low - 0xDC00)), rest)
      | none => (Char.ofNat 0xFFFD, rest)
    else if 0xDC00 ≤ unit ∧ unit < 0xE000 then (Char.ofNat 0xFFFD, rest)
    else (Char.ofNat unit, rest)

/-- What follows a backslash. -/
def escape : List Char → Option (Char × List Char)
  | [] => none
  | letter :: rest =>
    if letter = 'u' then unicodeEscape rest
    else if letter = '/' then some ('/', rest)
    else (shortEscapes.find? fun short => short.2 = letter).map fun short => (short.1, rest)

/-- The rest of a string literal after its opening quotation mark. -/
def literal : Nat → List Char → Option (List Char × List Char)
  | 0, _ | _ + 1, [] => none
  | fuel + 1, c :: rest =>
    if c = '"' then some ([], rest)
    else if c = '\\' then
      (escape rest).bind fun (c, rest) => (literal fuel rest).map fun (cs, rest) => (c :: cs, rest)
    else if c.toNat < 32 then none
    else (literal fuel rest).map fun (cs, rest) => (c :: cs, rest)

/-! ### Values -/

def isSpace (c : Char) : Bool := c = ' ' || c = '\t' || c = '\n' || c = '\r'

/-- The text after white space and the character `c`, if that is what comes. -/
def expect (c : Char) (text : List Char) : Option (List Char) :=
  match text.dropWhile isSpace with
  | [] => none
  | d :: rest => if d = c then some rest else none

/-- The text after white space and a word. -/
def word (w : String) (text : List Char) : Option (List Char) :=
  let rest := text.dropWhile isSpace
  if w.toList.isPrefixOf rest then some (rest.drop w.length) else none

/-- At least one digit. -/
def digits (text : List Char) : Option (List Char × List Char) :=
  let ds := text.takeWhile Char.isDigit
  if ds = [] then none else some (ds, text.dropWhile Char.isDigit)

def sign (signs text : List Char) : List Char × List Char :=
  match text with
  | c :: rest => if c ∈ signs then ([c], rest) else ([], text)
  | [] => ([], [])

def fraction (text : List Char) : Option (List Char × List Char) :=
  match text with
  | '.' :: rest => (digits rest).map fun (ds, rest) => ('.' :: ds, rest)
  | _ => some ([], text)

def exponent : List Char → Option (List Char × List Char)
  | 'e' :: rest | 'E' :: rest =>
    let (s, rest) := sign ['+', '-'] rest
    (digits rest).map fun (ds, rest) => ('e' :: s ++ ds, rest)
  | text => some ([], text)

def number [JsNumber N] (text : List Char) : Option (N × List Char) := do
  let (s, rest) := sign ['-'] (text.dropWhile isSpace)
  let (int, rest) ← match rest with
    | '0' :: rest => some (['0'], rest)
    | _ => digits rest
  let (frac, rest) ← fraction rest
  let (exp, rest) ← exponent rest
  return (JsNumber.parse (String.ofList (s ++ int ++ frac ++ exp)), rest)

/-- A later field replaces an earlier one of the same name. -/
def assign (fields : JsonObject N) (k : String) (v : Json N) : JsonObject N :=
  if fields.any fun field => field.1 = k then fields.map fun field => if field.1 = k then (k, v) else field
  else fields ++ [(k, v)]

mutual

def value [JsNumber N] : Nat → List Char → Option (Json N × List Char)
  | 0, _ => none
  | fuel + 1, text =>
    ((expect '"' text).bind fun rest => (literal fuel rest).map fun (cs, rest) => (.str (String.ofList cs), rest)) <|>
    ((expect '{' text).bind fun rest =>
      ((expect '}' rest).map fun rest => (.obj [], rest)) <|>
      (members fuel [] rest).map fun (fields, rest) => (.obj fields, rest)) <|>
    ((expect '[' text).bind fun rest =>
      ((expect ']' rest).map fun rest => (.arr [], rest)) <|>
      (elements fuel rest).map fun (xs, rest) => (.arr xs, rest)) <|>
    ((word "true" text).map fun rest => (.bool true, rest)) <|>
    ((word "false" text).map fun rest => (.bool false, rest)) <|>
    ((word "null" text).map fun rest => (.null, rest)) <|>
    (number text).map fun (n, rest) => (.num n, rest)

/-- The fields of an object, up to its closing brace; `fields` are those before. -/
def members [JsNumber N] : Nat → JsonObject N → List Char → Option (JsonObject N × List Char)
  | 0, _, _ => none
  | fuel + 1, fields, text => do
    let (k, rest) ← literal fuel (← expect '"' text)
    let (v, rest) ← value fuel (← expect ':' rest)
    let fields := assign fields (String.ofList k) v
    ((expect '}' rest).map fun rest => (fields, rest)) <|> (expect ',' rest).bind (members fuel fields)

/-- The elements of an array, up to its closing bracket. -/
def elements [JsNumber N] : Nat → List Char → Option (List (Json N) × List Char)
  | 0, _ => none
  | fuel + 1, text => do
    let (x, rest) ← value fuel text
    ((expect ']' rest).map fun rest => ([x], rest)) <|>
      ((expect ',' rest).bind (elements fuel)).map fun (xs, rest) => (x :: xs, rest)

end

/-- `JSON.parse(text)`; `none` where it throws. -/
def parse [JsNumber N] (text : String) : Option (Json N) :=
  (value (text.length + 1) text.toList).bind fun (v, rest) =>
    if rest.dropWhile isSpace = [] then some v else none

mutual

def stringifyChars [JsNumber N] : Json N → List Char
  | .null => "null".toList
  | .bool b => if b then "true".toList else "false".toList
  | .num n => if JsNumber.isFinite n then (JsNumber.format n).toList else "null".toList
  | .str s => quote s
  | .arr xs => '[' :: (stringifyItems xs ++ [']'])
  | .obj fields => '{' :: (stringifyFields fields ++ ['}'])

def stringifyItems [JsNumber N] : List (Json N) → List Char
  | [] => []
  | [x] => stringifyChars x
  | x :: xs => stringifyChars x ++ ',' :: stringifyItems xs

def stringifyFields [JsNumber N] : List (String × Json N) → List Char
  | [] => []
  | [(k, x)] => quote k ++ ':' :: stringifyChars x
  | (k, x) :: fields => quote k ++ ':' :: stringifyChars x ++ ',' :: stringifyFields fields

end

/-- `JSON.stringify(value)` -/
def stringify [JsNumber N] (v : Json N) : String := String.ofList (stringifyChars v)

end JsonText
