import Mathlib.Data.List.Basic

/-!
# JSON texts

The texts that Go's `encoding/json` accepts, as values. `parse` is a recursive descent over the
characters with the scanner's grammar: white space between tokens, literals, numbers without
leading zeros, strings without control characters, and at most `maxNestingDepth` open arrays and
objects. Anything else, trailing text included, is a syntax error, here `none`.

A string literal is read in two passes, as Go unquotes it. `scanString` resolves the escapes and
keeps every `\u` escape as a code unit; `joinSurrogates` then combines a high surrogate with the
low surrogate that follows it and replaces a surrogate without partner by U+FFFD. A number keeps
its literal, because the decoder parses it by the type it is stored to.

Texts are sequences of Unicode scalar values. Go replaces an invalid byte in a string literal by
U+FFFD and rejects it elsewhere, which is what the text with that replacement made beforehand
gives.
-/

set_option autoImplicit false
set_option relaxedAutoImplicit false

namespace StudentStatus.Json

/-- A JSON value; members keep their order and their duplicates. -/
inductive Value : Type
  | null
  | bool (b : Bool)
  | number (literal : List Char)
  | string (s : String)
  | array (elements : List Value)
  | object (members : List (String × Value))

/-- `maxNestingDepth` of the scanner. -/
def maxNestingDepth : ℕ := 10000

/-- The white space of the grammar. -/
def isSpace (c : Char) : Bool := c = ' ' || c = '\t' || c = '\r' || c = '\n'

def skipSpace (text : List Char) : List Char := text.dropWhile isSpace

/-! ### Strings -/

/-- A part of a string literal: a character, or the code unit of a `\u` escape. -/
inductive Piece : Type
  | rune (c : Char)
  | unit (u : ℕ)

def hexDigit? (c : Char) : Option ℕ :=
  if '0' ≤ c ∧ c ≤ '9' then some (c.toNat - 48)
  else if 'a' ≤ c ∧ c ≤ 'f' then some (c.toNat - 87)
  else if 'A' ≤ c ∧ c ≤ 'F' then some (c.toNat - 55)
  else none

/-- The code unit of four hexadecimal digits. -/
def hex4? (a b c d : Char) : Option ℕ := do
  let a ← hexDigit? a
  let b ← hexDigit? b
  let c ← hexDigit? c
  let d ← hexDigit? d
  return ((a * 16 + b) * 16 + c) * 16 + d

/-- The character of a one-letter escape. -/
def escape? (c : Char) : Option Char :=
  if c = '"' ∨ c = '\\' ∨ c = '/' then some c
  else if c = 'b' then some '\x08'
  else if c = 'f' then some '\x0c'
  else if c = 'n' then some '\n'
  else if c = 'r' then some '\r'
  else if c = 't' then some '\t'
  else none

/-- The pieces of a string literal after its opening quote, and the text after its closing one. -/
def scanString : List Char → Option (List Piece × List Char)
  | [] => none
  | c :: rest =>
    if c = '"' then some ([], rest)
    else if c = '\\' then
      match rest with
      | [] => none
      | e :: rest =>
        if e = 'u' then
          match rest with
          | h₁ :: h₂ :: h₃ :: h₄ :: rest => do
            let u ← hex4? h₁ h₂ h₃ h₄
            let (pieces, rest) ← scanString rest
            return (.unit u :: pieces, rest)
          | _ => none
        else do
          let c ← escape? e
          let (pieces, rest) ← scanString rest
          return (.rune c :: pieces, rest)
    else if c.toNat < 0x20 then none
    else do
      let (pieces, rest) ← scanString rest
      return (.rune c :: pieces, rest)

def isHighSurrogate (u : ℕ) : Bool := 0xD800 ≤ u && u < 0xDC00

def isLowSurrogate (u : ℕ) : Bool := 0xDC00 ≤ u && u < 0xE000

/-- The character of a code unit on its own. -/
def ofUnit (u : ℕ) : Char :=
  if isHighSurrogate u || isLowSurrogate u then '\uFFFD' else Char.ofNat u

/-- The characters of a string literal. -/
def joinSurrogates : List Piece → List Char
  | [] => []
  | .rune c :: pieces => c :: joinSurrogates pieces
  | .unit u :: pieces =>
    match pieces with
    | .unit v :: pieces' =>
      if isHighSurrogate u && isLowSurrogate v then
        Char.ofNat (0x10000 + (u - 0xD800) * 0x400 + (v - 0xDC00)) :: joinSurrogates pieces'
      else ofUnit u :: joinSurrogates (.unit v :: pieces')
    | pieces => ofUnit u :: joinSurrogates pieces

/-- A string literal after its opening quote. -/
def string (text : List Char) : Option (String × List Char) := do
  let (pieces, rest) ← scanString text
  return (String.ofList (joinSurrogates pieces), rest)

/-! ### Numbers -/

/-- An optional minus sign. -/
def sign : List Char → List Char × List Char
  | '-' :: rest => (['-'], rest)
  | text => ([], text)

/-- At least one digit. -/
def digits (text : List Char) : Option (List Char × List Char) :=
  match text.span Char.isDigit with
  | ([], _) => none
  | (ds, rest) => some (ds, rest)

/-- The integer part: a single zero, or digits that do not start with one. -/
def integer : List Char → Option (List Char × List Char)
  | '0' :: rest => some (['0'], rest)
  | text => digits text

/-- An optional fraction. -/
def fraction : List Char → Option (List Char × List Char)
  | '.' :: rest => do
    let (ds, rest) ← digits rest
    return ('.' :: ds, rest)
  | text => some ([], text)

/-- An optional exponent. -/
def exponent : List Char → Option (List Char × List Char)
  | e :: rest =>
    if e = 'e' ∨ e = 'E' then
      match rest with
      | s :: tail =>
        if s = '+' ∨ s = '-' then do
          let (ds, rest) ← digits tail
          return (e :: s :: ds, rest)
        else do
          let (ds, rest) ← digits rest
          return (e :: ds, rest)
      | [] => none
    else some ([], e :: rest)
  | [] => some ([], [])

/-- A number literal. -/
def number (text : List Char) : Option (List Char × List Char) := do
  let (minus, rest) := sign text
  let (int, rest) ← integer rest
  let (frac, rest) ← fraction rest
  let (exp, rest) ← exponent rest
  return (minus ++ int ++ frac ++ exp, rest)

/-! ### Values -/

/-- The text after a word that it starts with. -/
def afterWord (word : String) (text : List Char) : Option (List Char) :=
  if word.toList.isPrefixOf text then some (text.drop word.length) else none

/-- A value that is neither an array nor an object. -/
def scalar : List Char → Option (Value × List Char)
  | [] => none
  | c :: rest =>
    if c = '"' then do
      let (s, rest) ← string rest
      return (.string s, rest)
    else if c = 'n' then do return (.null, ← afterWord "null" (c :: rest))
    else if c = 't' then do return (.bool true, ← afterWord "true" (c :: rest))
    else if c = 'f' then do return (.bool false, ← afterWord "false" (c :: rest))
    else do
      let (literal, rest) ← number (c :: rest)
      return (.number literal, rest)

section Nested

variable (value : List Char → Option (Value × List Char))

/-- The elements of an array and its closing bracket. The fuel is the length of the text, and every
element takes at least one character. -/
def elements : ℕ → List Char → Option (List Value × List Char)
  | 0, _ => none
  | fuel + 1, text => do
    let (element, text) ← value text
    match skipSpace text with
    | ',' :: text => do
      let (rest, text) ← elements fuel text
      return (element :: rest, text)
    | ']' :: text => return ([element], text)
    | _ => none

/-- The members of an object and its closing brace, with fuel as for `elements`. -/
def members : ℕ → List Char → Option (List (String × Value) × List Char)
  | 0, _ => none
  | fuel + 1, text =>
    match skipSpace text with
    | '"' :: text => do
      let (key, text) ← string text
      match skipSpace text with
      | ':' :: text => do
        let (member, text) ← value text
        match skipSpace text with
        | ',' :: text => do
          let (rest, text) ← members fuel text
          return ((key, member) :: rest, text)
        | '}' :: text => return ([(key, member)], text)
        | _ => none
      | _ => none
    | _ => none

/-- An array after its opening bracket. -/
def array (text : List Char) : Option (Value × List Char) :=
  match skipSpace text with
  | ']' :: rest => some (.array [], rest)
  | _ => do
    let (elements, rest) ← elements value (text.length + 1) text
    return (.array elements, rest)

/-- An object after its opening brace. -/
def object (text : List Char) : Option (Value × List Char) :=
  match skipSpace text with
  | '}' :: rest => some (.object [], rest)
  | _ => do
    let (members, rest) ← members value (text.length + 1) text
    return (.object members, rest)

end Nested

/-- A value inside which at most `depth` arrays and objects are open. -/
def value : ℕ → List Char → Option (Value × List Char)
  | 0, text => scalar (skipSpace text)
  | depth + 1, text =>
    match skipSpace text with
    | '[' :: rest => array (value depth) rest
    | '{' :: rest => object (value depth) rest
    | rest => scalar rest

/-- The value of a whole text. -/
def parse (text : String) : Option Value := do
  let (v, rest) ← value maxNestingDepth text.toList
  if rest.all isSpace then some v else none

end StudentStatus.Json
