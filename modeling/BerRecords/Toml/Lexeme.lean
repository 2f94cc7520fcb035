/-!
# Lexemes of TOML

Blanks, comments, line ends, strings and keys at the start of a text. Every function
gives what it read and what follows, or nothing where the text is not as it should be.
-/

set_option autoImplicit false

namespace BerRecords.Toml

def lead? : List Char → List Char → Option (List Char)
  | [], text => some text
  | _ :: _, [] => none
  | l :: lead, c :: text => if l = c then lead? lead text else none

def skipBlanks (text : List Char) : List Char :=
  text.dropWhile fun c => c = ' ' || c = '\t'

def newline? : List Char → Option (List Char)
  | '\n' :: rest => some rest
  | '\r' :: '\n' :: rest => some rest
  | _ => none

def isPlain (c : Char) : Bool :=
  c = '\t' || (0x20 ≤ c.toNat && c.toNat ≠ 0x7f)

def skipComment : List Char → List Char
  | '#' :: rest => rest.dropWhile isPlain
  | text => text

def lineEnd? (text : List Char) : Option (List Char) :=
  match skipComment (skipBlanks text) with
  | [] => some []
  | text => newline? text

/-- What follows blanks, comments and line ends. `room` bounds how many lines. -/
def skipLines : Nat → List Char → List Char
  | 0, text => text
  | room + 1, text =>
    let after := skipComment (skipBlanks text)
    match newline? after with
    | some rest => skipLines room rest
    | none => after

def hexValue? (c : Char) : Option Nat :=
  if c.isDigit then some (c.toNat - '0'.toNat)
  else if 'a' ≤ c && c ≤ 'f' then some (c.toNat - 'a'.toNat + 10)
  else if 'A' ≤ c && c ≤ 'F' then some (c.toNat - 'A'.toNat + 10)
  else none

def hexNumber? (value : Nat) : Nat → List Char → Option (Nat × List Char)
  | 0, text => some (value, text)
  | _ + 1, [] => none
  | count + 1, c :: rest => do
    hexNumber? (value * 16 + (← hexValue? c)) count rest

def codePoint? (count : Nat) (text : List Char) : Option (Char × List Char) := do
  let (code, rest) ← hexNumber? 0 count text
  if code < 0xd800 || (0xe000 ≤ code && code < 0x110000) then some (Char.ofNat code, rest)
  else none

/-- The character that an escape stands for, its backslash passed, and what follows. -/
def escaped? : List Char → Option (Char × List Char)
  | 'b' :: rest => some ('\x08', rest)
  | 't' :: rest => some ('\t', rest)
  | 'n' :: rest => some ('\n', rest)
  | 'f' :: rest => some ('\x0c', rest)
  | 'r' :: rest => some ('\r', rest)
  | '"' :: rest => some ('"', rest)
  | '\\' :: rest => some ('\\', rest)
  | 'u' :: rest => codePoint? 4 rest
  | 'U' :: rest => codePoint? 8 rest
  | _ => none

def skipBlankLines : Nat → List Char → List Char
  | 0, text => text
  | room + 1, text =>
    match newline? (skipBlanks text) with
    | some rest => skipBlankLines room rest
    | none => skipBlanks text

/-- What follows a line break that a backslash takes away, together with all blanks and
line ends behind it. -/
def foldedLine? (room : Nat) (text : List Char) : Option (List Char) :=
  (newline? (skipBlanks text)).map (skipBlankLines room)

/-- The rest of a quoted string on one line. `done` holds its characters so far,
reversed, and `room` bounds how many may come. -/
def basicString? (done : List Char) : Nat → List Char → Option (String × List Char)
  | 0, _ => none
  | _ + 1, [] => none
  | room + 1, c :: rest =>
    if c = '"' then some (String.ofList done.reverse, rest)
    else if c = '\\' then do
      let (c, rest) ← escaped? rest
      basicString? (c :: done) room rest
    else if isPlain c then basicString? (c :: done) room rest
    else none

def literalString? (text : List Char) : Option (String × List Char) :=
  let inner := text.takeWhile fun c => c ≠ '\'' && isPlain c
  match text.drop inner.length with
  | '\'' :: rest => some (String.ofList inner, rest)
  | _ => none

def runLength (mark : Char) (text : List Char) : Nat :=
  (text.takeWhile (· = mark)).length

/-- The rest of a quoted string of several lines. Up to two quotes may stand before the
three that end it. -/
def longBasicString? (done : List Char) : Nat → List Char → Option (String × List Char)
  | 0, _ => none
  | _ + 1, [] => none
  | room + 1, c :: rest =>
    if c = '"' then
      let quotes := runLength '"' (c :: rest)
      if quotes < 3 then longBasicString? (c :: done) room rest
      else if quotes < 6 then
        some (String.ofList (List.replicate (quotes - 3) '"' ++ done).reverse,
          (c :: rest).drop quotes)
      else none
    else if c = '\\' then
      match foldedLine? room rest with
      | some rest => longBasicString? done room rest
      | none => do
        let (c, rest) ← escaped? rest
        longBasicString? (c :: done) room rest
    else
      match newline? (c :: rest) with
      | some rest => longBasicString? ('\n' :: done) room rest
      | none => if isPlain c then longBasicString? (c :: done) room rest else none

def longLiteralString? (done : List Char) : Nat → List Char → Option (String × List Char)
  | 0, _ => none
  | _ + 1, [] => none
  | room + 1, c :: rest =>
    if c = '\'' then
      let quotes := runLength '\'' (c :: rest)
      if quotes < 3 then longLiteralString? (c :: done) room rest
      else if quotes < 6 then
        some (String.ofList (List.replicate (quotes - 3) '\'' ++ done).reverse,
          (c :: rest).drop quotes)
      else none
    else
      match newline? (c :: rest) with
      | some rest => longLiteralString? ('\n' :: done) room rest
      | none => if isPlain c then longLiteralString? (c :: done) room rest else none

def skipNewline (text : List Char) : List Char :=
  (newline? text).getD text

def shortString? (room : Nat) : List Char → Option (String × List Char)
  | '"' :: rest => basicString? [] room rest
  | '\'' :: rest => literalString? rest
  | _ => none

def string? (room : Nat) (text : List Char) : Option (String × List Char) :=
  match lead? ['"', '"', '"'] text with
  | some rest => longBasicString? [] room (skipNewline rest)
  | none =>
    match lead? ['\'', '\'', '\''] text with
    | some rest => longLiteralString? [] room (skipNewline rest)
    | none => shortString? room text

def isBareKeyChar (c : Char) : Bool :=
  c.isAlphanum || c = '_' || c = '-'

def keyPart? (room : Nat) (text : List Char) : Option (String × List Char) :=
  match shortString? room text with
  | some found => some found
  | none =>
    let key := text.takeWhile isBareKeyChar
    if key.isEmpty then none else some (String.ofList key, text.drop key.length)

def keyParts? : Nat → List Char → Option (List String × List Char)
  | 0, _ => none
  | room + 1, text => do
    let (part, rest) ← keyPart? (room + 1) (skipBlanks text)
    match skipBlanks rest with
    | '.' :: rest => do
      let (parts, rest) ← keyParts? room rest
      return (part :: parts, rest)
    | rest => return ([part], rest)

/-- How deep values may lie in one another, and how many parts a key may have. -/
def deepest : Nat := 79

/-- A key, the last part apart from those before. `room` is more than the text's length. -/
def key? (room : Nat) (text : List Char) : Option ((List String × String) × List Char) := do
  let (parts, rest) ← keyParts? room text
  if deepest < parts.length then none
  else return ((parts.dropLast, ← parts.getLast?), rest)

end BerRecords.Toml
