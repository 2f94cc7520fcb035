import BerRecords.Module.Assignment
import BerRecords.Proofs.Module.Lexeme

/-!
# Writing declarations

The texts that say a list of declarations. Between two lexemes there may be any spaces and newlines,
and there are some where the two would run together otherwise. A text may also hold constraints, named
values, default values and marks of extension, which the declarations do not keep.
-/

set_option autoImplicit false

namespace BerRecords.Module

/-! ## Lexemes -/

def IsGap (gap : List Char) : Prop :=
  ∀ c ∈ gap, c = ' ' ∨ c = '\n'

instance (gap : List Char) : Decidable (IsGap gap) :=
  decidable_of_iff (gap.all (fun c => c = ' ' || c = '\n') = true) (by simp [IsGap])

/-- Side by side the two texts do not run together to a longer word. -/
def Apart (left right : List Char) : Prop :=
  ∀ c ∈ left.getLast?, ∀ d ∈ right.head?, ¬(isJoint c = true ∧ isJoint d = true)

instance (left right : List Char) : Decidable (Apart left right) :=
  decidable_of_iff
    ((left.getLast?.all fun c => right.head?.all fun d => ¬(isJoint c = true ∧ isJoint d = true)) = true)
    (by simp only [Apart, Option.all_eq_true, Option.mem_def, decide_eq_true_eq])

def reserved : List String :=
  ["SEQUENCE", "SET", "OF", "CHOICE", "ANY", "DEFINED", "BY", "COMPONENTS", "IMPLICIT", "EXPLICIT",
    "OPTIONAL", "DEFAULT", "BEGIN", "OCTET", "BIT", "OBJECT", "STRING", "IDENTIFIER"] ++
    DeclaredType.builtin.map (·.text)

/-- A letter, then letters, digits and single hyphens inside, and no word with a meaning of its own. -/
structure Ordinary (name : List Char) : Prop where
  letter : name.head?.any Char.isAlpha = true
  parts : ∀ c ∈ name, c.isAlphanum = true ∨ c = '-'
  single : ¬['-', '-'] <:+: name
  inner : name.getLast? ≠ some '-'
  free : String.ofList name ∉ reserved

instance (name : List Char) : Decidable (Ordinary name) :=
  decidable_of_iff (name.head?.any Char.isAlpha = true ∧
      (name.all fun c => c.isAlphanum || c = '-') = true ∧ ¬['-', '-'] <:+: name ∧
      name.getLast? ≠ some '-' ∧ String.ofList name ∉ reserved)
    ⟨fun ⟨letter, parts, single, inner, free⟩ => ⟨letter, by simpa using parts, single, inner, free⟩,
      fun ⟨letter, parts, single, inner, free⟩ => ⟨letter, by simpa using parts, single, inner, free⟩⟩

/-! ## Texts that are passed over -/

/-- How many brackets are open behind a text; none if one closes that was not opened in it. -/
def openBehind? (opening closing : Char) : Nat → List Char → Option Nat
  | depth, [] => some depth
  | depth, c :: text =>
    if c = opening then openBehind? opening closing (depth + 1) text
    else if c = closing then
      if depth = 0 then none else openBehind? opening closing (depth - 1) text
    else openBehind? opening closing depth text

/-- Whether every comma stands in braces or parentheses, of which `depth` are open in front. -/
def commasInside : Nat → List Char → Bool
  | _, [] => true
  | depth, c :: text =>
    if c = '\x7b' || c = '(' then commasInside (depth + 1) text
    else if c = '\x7d' || c = ')' then commasInside (depth - 1) text
    else (c ≠ ',' || depth ≠ 0) && commasInside depth text

/-- Balanced in braces and in parentheses, without the signs of a comment and of an assignment. -/
structure Passable (text : List Char) : Prop where
  braces : openBehind? '\x7b' '\x7d' 0 text = some 0
  parentheses : openBehind? '(' ')' 0 text = some 0
  comments : ¬['-', '-'] <:+: text
  signs : ¬[':', ':', '='] <:+: text

instance (text : List Char) : Decidable (Passable text) :=
  decidable_of_iff (openBehind? '\x7b' '\x7d' 0 text = some 0 ∧ openBehind? '(' ')' 0 text = some 0 ∧
      ¬['-', '-'] <:+: text ∧ ¬[':', ':', '='] <:+: text)
    ⟨fun ⟨braces, parentheses, comments, signs⟩ => ⟨braces, parentheses, comments, signs⟩,
      fun ⟨braces, parentheses, comments, signs⟩ => ⟨braces, parentheses, comments, signs⟩⟩

inductive WrittenConstraints : List Char → Prop where
  | absent : WrittenConstraints []
  | more {gap inner rest : List Char} : IsGap gap → Passable inner → WrittenConstraints rest →
      WrittenConstraints (gap ++ '(' :: (inner ++ ')' :: rest))

inductive WrittenValues : List Char → Prop where
  | absent : WrittenValues []
  | listed {gap inner : List Char} : IsGap gap → Passable inner →
      WrittenValues (gap ++ '\x7b' :: (inner ++ ['\x7d']))

/-- What stands behind the type of a component, and whether the component may be left out. -/
inductive WrittenPresence : Bool → List Char → Prop where
  | required {gap : List Char} : IsGap gap → WrittenPresence false gap
  | optional {gap gap' : List Char} : IsGap gap → IsGap gap' →
      WrittenPresence true (gap ++ ("OPTIONAL".toList ++ gap'))
  | default {gap value : List Char} : IsGap gap → Apart "DEFAULT".toList value → Passable value →
      commasInside 0 value = true → WrittenPresence true (gap ++ ("DEFAULT".toList ++ value))

/-! ## Tags -/

def classNames : List (TagClass × String) :=
  [(.universal, "UNIVERSAL"), (.application, "APPLICATION"), (.privateUse, "PRIVATE"),
    (.context, "CONTEXT"), (.context, "CONTEXT-SPECIFIC")]

/-- A class by its word, with a gap behind it. The class of the context needs no word. -/
inductive WrittenClass : TagClass → List Char → Prop where
  | bare : WrittenClass .context []
  | named {tagClass : TagClass} {word : String} {gap : List Char} :
      (tagClass, word) ∈ classNames → IsGap gap → gap ≠ [] →
      WrittenClass tagClass (word.toList ++ gap)

inductive WrittenTagging : List Char → Prop where
  | absent : WrittenTagging []
  | given {gap : List Char} {word : String} : IsGap gap → word ∈ ["IMPLICIT", "EXPLICIT"] →
      WrittenTagging (gap ++ word.toList)

inductive WrittenTag : Option Tag → List Char → Prop where
  | absent : WrittenTag none []
  | bracketed {outer gap gap' words tagging : List Char} {tagClass : TagClass} {number : Nat} :
      IsGap outer → IsGap gap → WrittenClass tagClass words → number < UInt32.size → IsGap gap' →
      WrittenTagging tagging →
      WrittenTag (some ⟨tagClass, false, number⟩)
        (outer ++ '[' :: (gap ++ (words ++ (Nat.toDigits 10 number ++ (gap' ++ ']' :: tagging)))))

/-! ## Types -/

def pairedTypes : List (DeclaredType × String × String) :=
  [(.octetString, "OCTET", "STRING"), (.bitString, "BIT", "STRING"),
    (.objectIdentifier, "OBJECT", "IDENTIFIER")]

inductive WrittenBuiltin : DeclaredType → List Char → Prop where
  | single {type : DeclaredType} : type ∈ DeclaredType.builtin → ' ' ∉ type.text.toList →
      WrittenBuiltin type type.text.toList
  | paired {type : DeclaredType} {first second : String} {gap : List Char} :
      (type, first, second) ∈ pairedTypes → IsGap gap → gap ≠ [] →
      WrittenBuiltin type (first.toList ++ (gap ++ second.toList))

def groupingWord : Grouping → List Char
  | .sequence => "SEQUENCE".toList
  | .set => "SET".toList

mutual

inductive WrittenType : TypeExpr → List Char → Prop where
  | builtin {type : DeclaredType} {gap keywords named constraints : List Char} : IsGap gap →
      WrittenBuiltin type keywords → WrittenValues named → WrittenConstraints constraints →
      WrittenType (.builtin type) (gap ++ (keywords ++ (named ++ constraints)))
  | reference {gap name constraints : List Char} : IsGap gap → Ordinary name →
      WrittenConstraints constraints →
      WrittenType (.reference (String.ofList name)) (gap ++ (name ++ constraints))
  | record {grouping : Grouping} {items : List Item} {gap gap' inner : List Char} : IsGap gap →
      IsGap gap' → WrittenItems items inner →
      WrittenType (.record grouping items)
        (gap ++ (groupingWord grouping ++ (gap' ++ '\x7b' :: (inner ++ ['\x7d']))))
  | choice {items : List Item} {gap gap' inner : List Char} : IsGap gap → IsGap gap' →
      WrittenItems items inner →
      WrittenType (.choice items) (gap ++ ("CHOICE".toList ++ (gap' ++ '\x7b' :: (inner ++ ['\x7d']))))
  | collection {grouping : Grouping} {element : TypeExpr} {gap gap' constraints text : List Char} :
      IsGap gap → WrittenConstraints constraints → IsGap gap' →
      Apart (groupingWord grouping) (constraints ++ (gap' ++ "OF".toList)) → WrittenType element text →
      Apart "OF".toList text →
      WrittenType (.collection grouping element)
        (gap ++ (groupingWord grouping ++ (constraints ++ (gap' ++ ("OF".toList ++ text)))))
  | any {gap : List Char} : IsGap gap → WrittenType (.any "") (gap ++ "ANY".toList)
  | anyDefinedBy {gap gap₁ gap₂ gap₃ name : List Char} : IsGap gap → IsGap gap₁ → gap₁ ≠ [] →
      IsGap gap₂ → gap₂ ≠ [] → IsGap gap₃ → gap₃ ≠ [] → Ordinary name →
      WrittenType (.any (String.ofList name))
        (gap ++ ("ANY".toList ++ (gap₁ ++ ("DEFINED".toList ++ (gap₂ ++ ("BY".toList ++
          (gap₃ ++ name)))))))

/-- The text between two commas of a body says these items, which are one or none. -/
inductive WrittenItem : List Item → List Char → Prop where
  | blank {gap : List Char} : IsGap gap → WrittenItem [] gap
  | mark {gap gap' : List Char} : IsGap gap → IsGap gap' →
      WrittenItem [] (gap ++ (['.', '.', '.'] ++ gap'))
  | componentsOf {gap gap₁ gap₂ gap₃ name : List Char} : IsGap gap → IsGap gap₁ → gap₁ ≠ [] →
      IsGap gap₂ → gap₂ ≠ [] → Ordinary name → IsGap gap₃ →
      WrittenItem [.componentsOf (String.ofList name)]
        (gap ++ ("COMPONENTS".toList ++ (gap₁ ++ ("OF".toList ++ (gap₂ ++ (name ++ gap₃))))))
  | component {gap name tagText text presence : List Char} {tag : Option Tag} {type : TypeExpr}
      {optional : Bool} : IsGap gap → Ordinary name → WrittenTag tag tagText →
      Apart name (tagText ++ text) → WrittenType type text → Apart tagText text →
      WrittenPresence optional presence → Apart text presence →
      WrittenItem [.component (String.ofList name) tag type optional]
        (gap ++ (name ++ (tagText ++ (text ++ presence))))

inductive WrittenItems : List Item → List Char → Prop where
  | last {items : List Item} {text : List Char} : WrittenItem items text → WrittenItems items text
  | more {first rest : List Item} {text text' : List Char} : WrittenItem first text →
      WrittenItems rest text' → WrittenItems (first ++ rest) (text ++ ',' :: text')

end

/-! ## Modules -/

/-- Assignments one after the other, each behind a newline and spaces, with only spaces between the
name and the sign. -/
inductive WrittenAssignments : List Declaration → List Char → Prop where
  | nil {gap : List Char} : IsGap gap → WrittenAssignments [] gap
  | cons {gap indent name space tagText text rest : List Char} {tag : Option Tag} {type : TypeExpr}
      {declarations : List Declaration} : IsGap gap → (∀ c ∈ indent, c = ' ') → Ordinary name →
      (∀ c ∈ space, c = ' ') → WrittenTag tag tagText → WrittenType type text → Apart tagText text →
      WrittenAssignments declarations rest →
      WrittenAssignments (⟨String.ofList name, tag, type⟩ :: declarations)
        (gap ++ '\n' :: (indent ++ (name ++ (space ++ ([':', ':', '='] ++ (tagText ++ (text ++ rest)))))))

/-- The text says the declarations: what it writes could stand behind a newline. -/
def WrittenModule (declarations : List Declaration) (text : List Char) : Prop :=
  WrittenAssignments declarations ('\n' :: text)

end BerRecords.Module
