import BerRecords.Toml

/-!
# TOML numbers and dates

Numbers and dates are words without blanks, except that a blank may stand between a
date and a time. Digits may be grouped by underscores.
-/

set_option autoImplicit false

namespace BerRecords.Toml

def decimalValue (c : Char) : Nat :=
  c.toNat - '0'.toNat

def isDigitOf (base : Nat) (c : Char) : Bool :=
  (c.isDigit && decimalValue c < base) ||
    (base = 16 && (('a' ≤ c && c ≤ 'f') || ('A' ≤ c && c ≤ 'F')))

def digitValue (c : Char) : Nat :=
  if c.isDigit then decimalValue c else c.toLower.toNat - 'a'.toNat + 10

/-- The digits of a word in which underscores may each stand between two digits. -/
def grouped? (base : Nat) : List Char → Option (List Char)
  | [] => none
  | [c] => if isDigitOf base c then some [c] else none
  | c :: '_' :: rest =>
    if isDigitOf base c then (grouped? base rest).map (c :: ·) else none
  | c :: rest => if isDigitOf base c then (grouped? base rest).map (c :: ·) else none

def decimal? (word : List Char) : Option (List Char) :=
  match word with
  | '0' :: _ :: _ => none
  | _ => grouped? 10 word

/-- The number that digits of a base spell, or `bound` if it is not below that. -/
def numberBelow (bound base : Nat) (digits : List Char) : Nat :=
  digits.foldl (fun number c => min bound (number * base + digitValue c)) 0

def wholeNumber (base : Nat) (digits : List Char) : Int :=
  numberBelow UInt64.size base digits

def splitSign : List Char → Bool × List Char
  | '-' :: rest => (true, rest)
  | '+' :: rest => (false, rest)
  | word => (false, word)

def signed (negative : Bool) (number : Int) : Int :=
  if negative then -number else number

def integer? (word : List Char) : Option Int :=
  let value : Option Int :=
    match word with
    | '0' :: 'x' :: rest => (grouped? 16 rest).map (wholeNumber 16)
    | '0' :: 'o' :: rest => (grouped? 8 rest).map (wholeNumber 8)
    | '0' :: 'b' :: rest => (grouped? 2 rest).map (wholeNumber 2)
    | word =>
      let (negative, magnitude) := splitSign word
      (decimal? magnitude).map fun digits => signed negative (wholeNumber 10 digits)
  value.bind fun value =>
    if Int64.minValue.toInt ≤ value && value ≤ Int64.maxValue.toInt then some value else none

/-- The digits of a floating number without its sign, and the power of ten to multiply
them with. -/
def floatParts? (word : List Char) : Option (List Char × Int) := do
  let isMark := fun c : Char => c = 'e' || c = 'E'
  let mantissa := word.takeWhile (!isMark ·)
  let power := word.drop mantissa.length
  let whole := mantissa.takeWhile (· ≠ '.')
  let fraction := mantissa.drop whole.length
  if fraction.isEmpty && power.isEmpty then none
  else
    let wholeDigits ← decimal? whole
    let fractionDigits ←
      if fraction.isEmpty then some [] else grouped? 10 (fraction.drop 1)
    let exponent ←
      if power.isEmpty then some 0
      else
        let (negative, magnitude) := splitSign (power.drop 1)
        (grouped? 10 magnitude).map fun digits => signed negative (wholeNumber 10 digits)
    return (wholeDigits ++ fractionDigits, exponent - fractionDigits.length)

/-- The least number that rounds to no finite float of 64 bits. It lies half a step above
the largest of them. -/
def firstOverflow : Nat :=
  ((1 <<< 54) - 1) <<< 970

def overflowDigits : Nat := 309

/-- Whether digits, multiplied with a power of ten, round to no finite float. The number of
digits before the point decides unless it is that of `firstOverflow`. -/
def overflows (digits : List Char) (exponent : Int) : Bool :=
  let digits := digits.dropWhile (· = '0')
  let size := digits.length + exponent
  if digits.isEmpty || size < overflowDigits then false
  else if overflowDigits < size then true
  else
    let number := digits.foldl (fun number c => number * 10 + digitValue c) 0
    firstOverflow * Nat.pow 10 (-exponent).toNat ≤ number * Nat.pow 10 exponent.toNat

/-- Whether a word is a floating number. A number that is too large is none, but below zero
it counts as infinite. -/
def isFloat (word : List Char) : Bool :=
  let (negative, word) := splitSign word
  if word = ['i', 'n', 'f'] || word = ['n', 'a', 'n'] then true
  else
    match floatParts? word with
    | none => false
    | some (digits, exponent) => negative || !overflows digits exponent

def fixedDigits? (number : Nat) : Nat → List Char → Option (Nat × List Char)
  | 0, text => some (number, text)
  | _ + 1, [] => none
  | count + 1, c :: rest =>
    if c.isDigit then fixedDigits? (number * 10 + decimalValue c) count rest else none

def mark? (mark : Char) : List Char → Option (List Char)
  | [] => none
  | c :: rest => if c = mark then some rest else none

def daysInMonth (year month : Nat) : Nat :=
  if month = 2 then
    if year % 4 = 0 && (year % 100 ≠ 0 || year % 400 = 0) then 29 else 28
  else if month = 4 || month = 6 || month = 9 || month = 11 then 30
  else 31

def date? (text : List Char) : Option (List Char) := do
  let (year, rest) ← fixedDigits? 0 4 text
  let (month, rest) ← fixedDigits? 0 2 (← mark? '-' rest)
  let (day, rest) ← fixedDigits? 0 2 (← mark? '-' rest)
  if 1 ≤ month && month ≤ 12 && 1 ≤ day && day ≤ daysInMonth year month then some rest else none

def time? (text : List Char) : Option (List Char) := do
  let (hour, rest) ← fixedDigits? 0 2 text
  let (minute, rest) ← fixedDigits? 0 2 (← mark? ':' rest)
  let (second, rest) ← fixedDigits? 0 2 (← mark? ':' rest)
  if 23 < hour || 59 < minute || 60 < second then none
  else
    match rest with
    | '.' :: rest =>
      let fraction := rest.takeWhile Char.isDigit
      if fraction.isEmpty then none else some (rest.drop fraction.length)
    | rest => some rest

def skipOffset (text : List Char) : Option (List Char) :=
  match text with
  | 'Z' :: rest | 'z' :: rest => some rest
  | '+' :: rest | '-' :: rest => do
    let (hour, rest) ← fixedDigits? 0 2 rest
    let (minute, rest) ← fixedDigits? 0 2 (← mark? ':' rest)
    if hour ≤ 23 && minute ≤ 59 then some rest else none
  | rest => some rest

/-- What follows a date with or without a time, or a time alone. -/
def moment? (text : List Char) : Option (List Char) :=
  match date? text with
  | none => time? text
  | some rest =>
    match rest with
    | c :: after =>
      if c = 'T' || c = 't' || c = ' ' then
        match (time? after).bind skipOffset with
        | some rest => some rest
        | none => some rest
      else some rest
    | [] => some []

def isWordChar (c : Char) : Bool :=
  c.isAlphanum || c = '+' || c = '-' || c = '_' || c = '.'

def scalar? (text : List Char) : Option (Toml × List Char) :=
  match moment? text with
  | some rest => some (.date, rest)
  | none =>
    let word := text.takeWhile isWordChar
    let rest := text.drop word.length
    if word = "true".toList then some (.boolean true, rest)
    else if word = "false".toList then some (.boolean false, rest)
    else
      match integer? word with
      | some value => some (.integer value, rest)
      | none => if isFloat word then some (.float, rest) else none

end BerRecords.Toml
