import BerRecords.Proofs.Records.Building

/-!
# The leaves of a tree

The primitive nodes of the tree of an element are the fields of the account of it, in the order of
the account.
-/

set_option autoImplicit false

namespace BerRecords

def Field.reading (field : Field) : String × Option Octets × Option DeclaredType × Nat :=
  (field.path, field.value, some field.type, field.offset)

namespace Node

mutual

/-- The primitive nodes of a tree from left to right, each read as the names from the root
down to it, joined by dots, its value, its type and its offset. -/
def leaves (names : List String) : Node → List (String × Option Octets × Option DeclaredType × Nat)
  | leaf label value =>
    [(Meaning.path (names ++ label.name.toList), value, label.type, label.offset)]
  | branch label children => leavesAll (names ++ label.name.toList) children

def leavesAll (names : List String) :
    List Node → List (String × Option Octets × Option DeclaredType × Nat)
  | [] => []
  | node :: rest => leaves names node ++ leavesAll names rest

end

theorem leavesAll_append (names : List String) (front back : List Node) :
    leavesAll names (front ++ back) = leavesAll names front ++ leavesAll names back := by
  induction front with
  | nil => rfl
  | cons node front ih => rw [List.cons_append, leavesAll, ih, leavesAll, List.append_assoc]

variable {names : List String} {encoding : TagEncoding}

theorem leavesAll_missing (inside : names ≠ []) (parent : String) (offset : Nat)
    (lacking : List Definition.Selection) :
    leavesAll names (lacking.map (ofMissing offset)) =
      (Account.fields (lacking.flatMap fun selection =>
        Account.lacked (Meaning.path names) parent offset selection.definition)).map
          Field.reading := by
  induction lacking with
  | nil => rfl
  | cons selection rest ih =>
      have told : Account.fields
            (Account.lacked (Meaning.path names) parent offset selection.definition) =
          [.ofMissing selection.definition
            (Walk.innerPath (Meaning.path names) selection.definition.name) offset] := rfl
      rw [List.map_cons, leavesAll, ih, List.flatMap_cons, Account.fields_append, told,
        List.map_append, ← Meaning.path_append inside]
      rfl

theorem leavesAll_closing (inside : names ≠ []) (mandatory : Bool) (definition : Definition)
    (header : Header) (selected : List Definition.Selection) :
    leavesAll names
        (if mandatory then (definition.lacking selected).map (ofMissing header.offset) else []) =
      (Account.fields (Account.closing mandatory (Meaning.path names) definition header
        selected)).map Field.reading := by
  have silent : Account.fields
      (Account.unchosen (Meaning.path names) definition header selected) = [] := by
    rw [Account.unchosen]
    split <;> rfl
  rw [Account.closing, Account.fields_append, silent, List.nil_append]
  split
  · dsimp only
    rw [Account.missing_eq_lacked]
    exact leavesAll_missing inside definition.name header.offset _
  · rfl

mutual

theorem leaves_ofElement (mandatory : Bool) (element : Element encoding) (definition : Definition)
    (named : definition.Named) {names : List String} (shown : Meaning.Shown names) (offset : Nat) :
    (ofElement mandatory definition offset element).leaves names =
      (Account.fields (Account.ofElement mandatory (Meaning.path names) definition offset
        element)).map Field.reading := by
  match element with
  | .leaf heading value =>
      rw [ofElement, Account.ofElement]
      simp only [Meaning.extendPath_path shown]
      split <;> rfl
  | .branch heading inside =>
      rw [ofElement, Account.ofElement]
      simp only [Meaning.extendPath_path shown]
      split
      · rfl
      · split
        · rfl
        · have closing := @leavesAll_closing (names ++ [definition.name]) (by simp) mandatory
            definition (heading.header offset)
            (definition.acceptAll [] (inside.map (·.heading.tag)))
          rw [leaves, Label.ofHeader, Option.toList_some, leavesAll_append,
            leavesAll_ofChildren mandatory inside definition named (shown.append named.name_ne)]
          refine (congrArg (_ ++ ·) closing).trans ?_
          rw [List.cons_append, Account.fields_cons]
          simp [Account.fields, Telling.field?]

theorem leavesAll_ofChildren (mandatory : Bool) (children : List (Element encoding))
    (definition : Definition) (named : definition.Named) {names : List String}
    (shown : Meaning.Shown names) (offset : Nat) (selected : List Definition.Selection) :
    leavesAll names (ofChildren mandatory definition offset selected children) =
      (Account.fields (Account.ofChildren mandatory (Meaning.path names) definition offset
        selected children)).map Field.reading := by
  match children with
  | [] => rfl
  | child :: rest =>
      rw [ofChildren, Account.ofChildren, leavesAll_append, Account.fields_append, List.map_append,
        leavesAll_ofChildren mandatory rest definition named shown]
      refine congrArg (· ++ _) ?_
      rcases chosen : definition.accept selected child.heading.tag with _ | selection
      · obtain ⟨issue, -, -, told⟩ := Account.leftOut_eq (Meaning.path names) definition
          (child.heading.header offset)
        dsimp only
        rw [told]
        rfl
      · dsimp only
        rw [leavesAll, leavesAll, List.append_nil]
        exact leaves_ofElement mandatory child selection.definition (named.accept chosen) shown
          offset

end

end Node

end BerRecords
