import BerRecords.Module.Expr
import BerRecords.Module.Tagging

/-!
# Reading types

The type at the start of a text. Constraints, named values and default values are
passed over, and so is the mark that more items may follow.
-/

set_option autoImplicit false

namespace BerRecords.Module

/-- Built-in types of two words at the start of a text: the words with the blanks
between them, and what follows. -/
def pairedWords? (text : List Char) : Option (List Char × List Char) :=
  [("OCTET", "STRING"), ("BIT", "STRING"), ("OBJECT", "IDENTIFIER")].findSome?
    fun (first, second) =>
      match wordThenBlanks? first text with
      | none => none
      | some rest =>
        match strip? second.toList rest with
        | none => none
        | some rest =>
          if rest.head?.any Text.isWordChar then none
          else some (first.toList ++ ' ' :: second.toList, rest)

def readTypeName (text : List Char) : Except TypeFault (List Char × List Char) :=
  match pairedWords? text with
  | some found => .ok found
  | none => (readName text).map fun (name, rest) => (name.toList, rest)

def skipNamedValues (text : List Char) : Except TypeFault (List Char) :=
  match Text.trimStart text with
  | '\x7b' :: rest => (readBraces ('\x7b' :: rest)).map (·.2)
  | text => .ok text

def readSimpleType (text : List Char) : Except TypeFault (TypeExpr × List Char) := do
  let (word, rest) ← readTypeName text
  let rest ← skipConstraints (← skipNamedValues rest)
  match DeclaredType.ofKeyword? word with
  | some type => return (.builtin type, rest)
  | none => return (.reference (String.ofList word), rest)

def readAnyRest (text : List Char) : Except TypeFault (TypeExpr × List Char) :=
  match keyword? "DEFINED" (Text.trimStart text) with
  | none => .ok (.any "", text)
  | some rest =>
    match keyword? "BY" (Text.trimStart rest) with
    | none => .error .byExpected
    | some rest => (readName rest).map fun (name, rest) => (.any name, rest)

def componentsOf? (item : List Char) : Option String :=
  match wordThenBlanks? "COMPONENTS" (Text.trimStart item) with
  | none => none
  | some rest =>
    match wordThenBlanks? "OF" rest with
    | none => none
    | some rest =>
      let isSourceChar := fun c => Text.isWordChar c || c = '-'
      let source := rest.takeWhile isSourceChar
      if source.isEmpty || !(Text.trimStart (rest.dropWhile isSourceChar)).isEmpty then none
      else some (String.ofList source)

/-- What the keyword at the start of a type announces, and what follows it. -/
inductive TypeStart where
  | choice (rest : List Char)
  | grouped (grouping : Grouping) (rest : List Char)
  | any (rest : List Char)
  | simple

def typeStart (text : List Char) : TypeStart :=
  match keyword? "CHOICE" text with
  | some rest => .choice rest
  | none =>
    match keyword? "SEQUENCE" text with
    | some rest => .grouped .sequence rest
    | none =>
      match keyword? "SET" text with
      | some rest => .grouped .set rest
      | none =>
        match keyword? "ANY" text with
        | some rest => .any rest
        | none => .simple

inductive ItemStart where
  | passed
  | componentsOf (source : String)
  | component (name : String) (tag : Option Tag) (type : List Char)

def itemStart (item : List Char) : Except TypeFault ItemStart :=
  let item := Text.trim item
  if item.isEmpty || (strip? ['.', '.', '.'] item).isSome then .ok .passed
  else
    match componentsOf? item with
    | some source => .ok (.componentsOf source)
    | none => do
      let (name, rest) ← readName item
      let (tag, rest) ← readTag rest
      return .component name tag rest

theorem trim_length (text : List Char) : (Text.trim text).length ≤ text.length := by
  simp only [Text.trim, List.length_reverse]
  have := dropWhile_length Text.isBlank (Text.trimStart text).reverse
  have := trimStart_length text
  simp only [List.length_reverse] at *
  omega

theorem itemStart_length {item type : List Char} {name : String} {tag : Option Tag}
    (start : itemStart item = .ok (.component name tag type)) : type.length ≤ item.length := by
  have trimmed := trim_length item
  simp only [itemStart] at start
  split at start
  · cases start
  · split at start
    · cases start
    · simp only [bind, Except.bind] at start
      split at start
      · cases start
      · rename_i named named_read
        split at start
        · cases start
        · rename_i tagged tag_read
          cases start
          have := readName_length named_read
          have := readTag_length tag_read
          omega

theorem typeStart_choice {text rest : List Char} (start : typeStart text = .choice rest) :
    rest.length < text.length := by
  simp only [typeStart] at start
  split at start
  · rename_i found
    cases start
    have := keyword?_length found
    have : "CHOICE".toList.length = 6 := rfl
    omega
  · repeat' split at start
    all_goals cases start

theorem typeStart_grouped {text rest : List Char} {grouping : Grouping}
    (start : typeStart text = .grouped grouping rest) : rest.length < text.length := by
  simp only [typeStart] at start
  split at start
  · cases start
  · split at start
    · rename_i found
      cases start
      have := keyword?_length found
      have : "SEQUENCE".toList.length = 8 := rfl
      omega
    · split at start
      · rename_i found
        cases start
        have := keyword?_length found
        have : "SET".toList.length = 3 := rfl
        omega
      · split at start <;> cases start

mutual

def readType (text : List Char) : Except TypeFault (TypeExpr × List Char) :=
  match _started : typeStart (Text.trimStart text) with
  | .choice rest =>
    match _braced : readBraces rest with
    | .error fault => .error fault
    | .ok (inner, rest) =>
      match readItems (splitItems inner) with
      | .error fault => .error fault
      | .ok items => .ok (.choice items, rest)
  | .grouped grouping rest =>
    match _skipped : skipConstraints rest with
    | .error fault => .error fault
    | .ok body =>
      match _collected : keyword? "OF" (Text.trimStart body) with
      | some rest =>
        match readType rest with
        | .error fault => .error fault
        | .ok (element, rest) => .ok (.collection grouping element, rest)
      | none =>
        match _braced : readBraces body with
        | .error fault => .error fault
        | .ok (inner, rest) =>
          match readItems (splitItems inner) with
          | .error fault => .error fault
          | .ok items => .ok (.record grouping items, rest)
  | .any rest => readAnyRest rest
  | .simple => readSimpleType (Text.trimStart text)
termination_by 2 * text.length + 1
decreasing_by
  · have := trimStart_length text
    have := typeStart_choice _started
    have := readBraces_length _braced
    have := splitItems_length inner
    omega
  · have := trimStart_length text
    have := typeStart_grouped _started
    have := skipConstraints_length _skipped
    have := keyword?_length _collected
    have := trimStart_length body
    omega
  · have := trimStart_length text
    have := typeStart_grouped _started
    have := skipConstraints_length _skipped
    have := readBraces_length _braced
    have := splitItems_length inner
    omega

def readItems : List (List Char) → Except TypeFault (List Item)
  | [] => .ok []
  | piece :: rest =>
    match _started : itemStart piece with
    | .error fault => .error fault
    | .ok .passed => readItems rest
    | .ok (.componentsOf source) =>
      match readItems rest with
      | .error fault => .error fault
      | .ok items => .ok (.componentsOf source :: items)
    | .ok (.component name tag text) =>
      match readType text with
      | .error fault => .error (.component name fault)
      | .ok (type, after) =>
        match readItems rest with
        | .error fault => .error fault
        | .ok items =>
          .ok (.component name tag type (hasWord ["OPTIONAL", "DEFAULT"] false after) :: items)
termination_by pieces => 2 * joinedLength pieces
decreasing_by
  all_goals simp only [joinedLength]
  · omega
  · omega
  · have := itemStart_length _started
    omega
  · omega

end

end BerRecords.Module
