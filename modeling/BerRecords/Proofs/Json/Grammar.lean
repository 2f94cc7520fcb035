import BerRecords.Json
import BerRecords.Proofs.Json.Literal

/-!
# JSON texts

The grammar of JSON with whole numbers, as relations between a text, the value that stands at its
start and what follows the value. Blanks may stand around every value, key and sign; the members of
an object keep their order. A text has one reading at most.
-/

set_option autoImplicit false

namespace BerRecords.Json

/-! ## The grammar -/

def isBlank (c : Char) : Bool :=
  c = ' ' || c = '\t' || c = '\n' || c = '\r'

def skip (text : List Char) : List Char :=
  text.dropWhile isBlank

/-- Digits of a whole number: there are some, and no zero is put in front of others. -/
def IsDecimal (digits : List Char) : Prop :=
  digits ≠ [] ∧ (digits.head? = some '0' → digits = ['0'])

/-- The text begins with a whole number, which takes all the digits there are. -/
inductive Numeral : List Char → Int → List Char → Prop where
  | natural {text : List Char} : IsDecimal (text.takeWhile Char.isDigit) →
      Numeral text (Nat.ofDigitChars 10 (text.takeWhile Char.isDigit) 0)
        (text.dropWhile Char.isDigit)
  | negative {text : List Char} : IsDecimal (text.takeWhile Char.isDigit) →
      Numeral ('-' :: text) (-(Nat.ofDigitChars 10 (text.takeWhile Char.isDigit) 0 : Int))
        (text.dropWhile Char.isDigit)

mutual

/-- The text begins with the value, before the rest. -/
inductive Reads : List Char → Json → List Char → Prop where
  | null {rest : List Char} : Reads ('n' :: 'u' :: 'l' :: 'l' :: rest) .null rest
  | true {rest : List Char} : Reads ('t' :: 'r' :: 'u' :: 'e' :: rest) (.boolean true) rest
  | false {rest : List Char} :
      Reads ('f' :: 'a' :: 'l' :: 's' :: 'e' :: rest) (.boolean false) rest
  | integer {text rest : List Char} {value : Int} : Numeral text value rest →
      Reads text (.integer value) rest
  | text {text rest characters : List Char} : Literal text characters rest →
      Reads ('"' :: text) (.text characters) rest
  | noItems {text rest : List Char} : skip text = ']' :: rest →
      Reads ('[' :: text) (.array []) rest
  | array {text rest : List Char} {items : List Json} : ReadsItems text items rest →
      Reads ('[' :: text) (.array items) rest
  | noMembers {text rest : List Char} : skip text = '\x7d' :: rest →
      Reads ('\x7b' :: text) (.object []) rest
  | object {text rest : List Char} {members : List (List Char × Json)} :
      ReadsMembers text members rest → Reads ('\x7b' :: text) (.object members) rest

inductive ReadsItems : List Char → List Json → List Char → Prop where
  | last {text middle rest : List Char} {item : Json} : Reads (skip text) item middle →
      skip middle = ']' :: rest → ReadsItems text [item] rest
  | more {text middle next rest : List Char} {item : Json} {items : List Json} :
      Reads (skip text) item middle → skip middle = ',' :: next → ReadsItems next items rest →
      ReadsItems text (item :: items) rest

inductive ReadsMembers : List Char → List (List Char × Json) → List Char → Prop where
  | last {text middle rest key : List Char} {value : Json} :
      ReadsMember (skip text) key value middle → skip middle = '\x7d' :: rest →
      ReadsMembers text [(key, value)] rest
  | more {text middle next rest key : List Char} {value : Json}
      {members : List (List Char × Json)} :
      ReadsMember (skip text) key value middle → skip middle = ',' :: next →
      ReadsMembers next members rest → ReadsMembers text ((key, value) :: members) rest

inductive ReadsMember : List Char → List Char → Json → List Char → Prop where
  | member {text named after rest key : List Char} {value : Json} : Literal text key named →
      skip named = ':' :: after → Reads (skip after) value rest →
      ReadsMember ('"' :: text) key value rest

end

/-- The whole text is one value, with blanks around it. -/
def IsText (text : List Char) (value : Json) : Prop :=
  ∃ rest, Reads (skip text) value rest ∧ skip rest = []

/-! ## One reading -/

variable {text rest rest' : List Char}

theorem Numeral.head {c : Char} {value : Int} (numeral : Numeral (c :: text) value rest) :
    (c = '-' || c.isDigit) = true := by
  cases numeral with
  | negative => rfl
  | natural decimal =>
      by_cases digit : c.isDigit = true
      · simp [digit]
      · rw [List.takeWhile_cons_of_neg digit] at decimal
        exact absurd rfl decimal.1

theorem Numeral.unique {value value' : Int} (numeral : Numeral text value rest)
    (numeral' : Numeral text value' rest') : value = value' ∧ rest = rest' := by
  cases numeral with
  | natural decimal =>
      cases numeral' with
      | natural => exact ⟨rfl, rfl⟩
      | negative => exact absurd rfl decimal.1
  | negative =>
      cases numeral' with
      | natural decimal => exact absurd rfl decimal.1
      | negative => exact ⟨rfl, rfl⟩

/-- No value begins with a closing bracket, so an array is empty or has a first item. -/
theorem ReadsItems.not_closed {next : List Char} {items : List Json}
    (closed : skip text = ']' :: next) : ¬ ReadsItems text items rest := by
  have not_value {value : Json} {rest : List Char} : ¬ Reads (skip text) value rest := by
    rw [closed]
    intro reads
    cases reads with
    | integer numeral => exact absurd numeral.head (by decide)
  intro reads
  cases reads with
  | last item | more item => exact not_value item

theorem ReadsMembers.not_closed {next : List Char} {members : List (List Char × Json)}
    (closed : skip text = '\x7d' :: next) : ¬ ReadsMembers text members rest := by
  have not_member {key rest : List Char} {value : Json} :
      ¬ ReadsMember (skip text) key value rest := by
    rw [closed]
    exact nofun
  intro reads
  cases reads with
  | last member | more member => exact not_member member

mutual

theorem Reads.unique {text rest rest' : List Char} {value value' : Json} :
    Reads text value rest → Reads text value' rest' → value = value' ∧ rest = rest'
  | .null, .null => ⟨rfl, rfl⟩
  | .true, .true => ⟨rfl, rfl⟩
  | .false, .false => ⟨rfl, rfl⟩
  | .integer numeral, .integer numeral' => by
      obtain ⟨rfl, rfl⟩ := numeral.unique numeral'
      exact ⟨rfl, rfl⟩
  | .text literal, .text literal' => by
      obtain ⟨rfl, rfl⟩ := literal.unique literal'
      exact ⟨rfl, rfl⟩
  | .noItems closed, .noItems closed' => by
      cases closed.symm.trans closed'
      exact ⟨rfl, rfl⟩
  | .noItems closed, .array items | .array items, .noItems closed =>
      absurd items (ReadsItems.not_closed closed)
  | .array items, .array items' => by
      obtain ⟨rfl, rfl⟩ := items.unique items'
      exact ⟨rfl, rfl⟩
  | .noMembers closed, .noMembers closed' => by
      cases closed.symm.trans closed'
      exact ⟨rfl, rfl⟩
  | .noMembers closed, .object members | .object members, .noMembers closed =>
      absurd members (ReadsMembers.not_closed closed)
  | .object members, .object members' => by
      obtain ⟨rfl, rfl⟩ := members.unique members'
      exact ⟨rfl, rfl⟩
  | .integer numeral, .null | .integer numeral, .true | .integer numeral, .false
  | .integer numeral, .text _ | .integer numeral, .noItems _ | .integer numeral, .array _
  | .integer numeral, .noMembers _ | .integer numeral, .object _
  | .null, .integer numeral | .true, .integer numeral | .false, .integer numeral
  | .text _, .integer numeral | .noItems _, .integer numeral | .array _, .integer numeral
  | .noMembers _, .integer numeral | .object _, .integer numeral =>
      absurd numeral.head (by decide)
termination_by structural reads => reads

theorem ReadsItems.unique {text rest rest' : List Char} {items items' : List Json} :
    ReadsItems text items rest → ReadsItems text items' rest' → items = items' ∧ rest = rest'
  | .last item closed, .last item' closed' => by
      obtain ⟨rfl, rfl⟩ := item.unique item'
      cases closed.symm.trans closed'
      exact ⟨rfl, rfl⟩
  | .last item closed, .more item' comma _ | .more item comma _, .last item' closed => by
      obtain ⟨rfl, rfl⟩ := item.unique item'
      cases closed.symm.trans comma
  | .more item comma items, .more item' comma' items' => by
      obtain ⟨rfl, rfl⟩ := item.unique item'
      cases comma.symm.trans comma'
      obtain ⟨rfl, rfl⟩ := items.unique items'
      exact ⟨rfl, rfl⟩
termination_by structural reads => reads

theorem ReadsMembers.unique {text rest rest' : List Char}
    {members members' : List (List Char × Json)} :
    ReadsMembers text members rest → ReadsMembers text members' rest' →
      members = members' ∧ rest = rest'
  | .last member closed, .last member' closed' => by
      obtain ⟨rfl, rfl, rfl⟩ := member.unique member'
      cases closed.symm.trans closed'
      exact ⟨rfl, rfl⟩
  | .last member closed, .more member' comma _ | .more member comma _, .last member' closed => by
      obtain ⟨rfl, rfl, rfl⟩ := member.unique member'
      cases closed.symm.trans comma
  | .more member comma members, .more member' comma' members' => by
      obtain ⟨rfl, rfl, rfl⟩ := member.unique member'
      cases comma.symm.trans comma'
      obtain ⟨rfl, rfl⟩ := members.unique members'
      exact ⟨rfl, rfl⟩
termination_by structural reads => reads

theorem ReadsMember.unique {text key key' rest rest' : List Char} {value value' : Json} :
    ReadsMember text key value rest → ReadsMember text key' value' rest' →
      key = key' ∧ value = value' ∧ rest = rest'
  | .member literal colon value, .member literal' colon' value' => by
      obtain ⟨rfl, rfl⟩ := literal.unique literal'
      cases colon.symm.trans colon'
      exact ⟨rfl, value.unique value'⟩
termination_by structural reads => reads

end

theorem IsText.unique {value value' : Json} (read : IsText text value)
    (read' : IsText text value') : value = value' := by
  obtain ⟨rest, reads, -⟩ := read
  obtain ⟨rest', reads', -⟩ := read'
  exact (reads.unique reads').1

end BerRecords.Json
