import BerRecords.Octets

/-!
# UTF-8

Decoding of octets into characters. A text that is no UTF-8 is refused at the
first character that cannot be completed, with the number of octets that do not
belong together, or with the remark that the octets end too early.
-/

set_option autoImplicit false

namespace BerRecords.Utf8

inductive Fault where
  | invalid (length index : Nat)
  | incomplete (index : Nat)
  deriving DecidableEq, Repr

def Fault.text : Fault → String
  | invalid length index => s!"invalid utf-8 sequence of {length} bytes from index {index}"
  | incomplete index => s!"incomplete utf-8 byte sequence from index {index}"

def isTail (octet : UInt8) : Bool :=
  128 ≤ octet.toNat && octet.toNat < 192

def tailBits (octet : UInt8) : Nat :=
  octet.toNat % 64

/-- How many octets a character that starts with `first` has; zero if none does. -/
def width (first : UInt8) : Nat :=
  let code := first.toNat
  if code < 0x80 then 1
  else if code < 0xc2 then 0
  else if code < 0xe0 then 2
  else if code < 0xf0 then 3
  else if code < 0xf5 then 4
  else 0

/-- Whether `second` can follow `first` in a character of three or four octets:
neither overlong, nor a surrogate, nor above the last code point. -/
def secondFits (first second : UInt8) : Bool :=
  let code := first.toNat
  isTail second &&
    (if code = 0xe0 then 0xa0 ≤ second.toNat
      else if code = 0xed then second.toNat < 0xa0
      else if code = 0xf0 then 0x90 ≤ second.toNat
      else if code = 0xf4 then second.toNat < 0x90
      else true)

/-- Decodes octets that start at `index`; `done` holds the characters before them,
reversed. -/
def decodeFrom (index : Nat) (done : List Char) : Octets → Except Fault (List Char)
  | [] => .ok done.reverse
  | first :: rest =>
    match width first with
    | 1 => decodeFrom (index + 1) (Char.ofNat first.toNat :: done) rest
    | 2 =>
      match rest with
      | [] => .error (.incomplete index)
      | second :: rest =>
        if isTail second then
          decodeFrom (index + 2)
            (Char.ofNat (first.toNat % 32 * 64 + tailBits second) :: done) rest
        else .error (.invalid 1 index)
    | 3 =>
      match rest with
      | [] => .error (.incomplete index)
      | [second] =>
        if secondFits first second then .error (.incomplete index) else .error (.invalid 1 index)
      | second :: third :: rest =>
        if secondFits first second then
          if isTail third then
            decodeFrom (index + 3)
              (Char.ofNat ((first.toNat % 16 * 64 + tailBits second) * 64 + tailBits third)
                :: done) rest
          else .error (.invalid 2 index)
        else .error (.invalid 1 index)
    | 4 =>
      match rest with
      | [] => .error (.incomplete index)
      | [second] =>
        if secondFits first second then .error (.incomplete index) else .error (.invalid 1 index)
      | [second, third] =>
        if secondFits first second then
          if isTail third then .error (.incomplete index) else .error (.invalid 2 index)
        else .error (.invalid 1 index)
      | second :: third :: fourth :: rest =>
        if secondFits first second then
          if isTail third then
            if isTail fourth then
              decodeFrom (index + 4)
                (Char.ofNat (((first.toNat % 8 * 64 + tailBits second) * 64 + tailBits third) * 64
                  + tailBits fourth) :: done) rest
            else .error (.invalid 3 index)
          else .error (.invalid 2 index)
        else .error (.invalid 1 index)
    | _ => .error (.invalid 1 index)

def decode (octets : Octets) : Except Fault (List Char) :=
  decodeFrom 0 [] octets

end BerRecords.Utf8
