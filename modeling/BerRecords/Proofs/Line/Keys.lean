import BerRecords.Line
import Mathlib.Data.List.Nodup

/-!
# The keys of the objects in a line

Only the objects of branches have keys that a line does not choose itself, so a line repeats a key
exactly if two nodes inside a branch have one key.
-/

set_option autoImplicit false

namespace BerRecords

namespace Json

mutual

/-- No object inside the value has two members of one key. -/
def KeysDistinct : Json → Prop
  | .array items => KeysDistinctAll items
  | .object members => (members.map Prod.fst).Nodup ∧ KeysDistinctIn members
  | .null | .boolean _ | .integer _ | .text _ => True

def KeysDistinctAll : List Json → Prop
  | [] => True
  | item :: rest => KeysDistinct item ∧ KeysDistinctAll rest

def KeysDistinctIn : List (List Char × Json) → Prop
  | [] => True
  | (_, value) :: rest => KeysDistinct value ∧ KeysDistinctIn rest

end

@[simp]
theorem keysDistinct_string (text : String) : (string text).KeysDistinct := by
  simp [string, KeysDistinct]

@[simp]
theorem keysDistinct_number (value : Nat) : (number value).KeysDistinct := by
  simp [number, KeysDistinct]

@[simp]
theorem keysDistinct_hex (octets : Octets) : (hex octets).KeysDistinct :=
  keysDistinct_string _

theorem keysDistinctAll_iff {items : List Json} :
    KeysDistinctAll items ↔ ∀ item ∈ items, item.KeysDistinct := by
  induction items with
  | nil => simp [KeysDistinctAll]
  | cons item rest ih => rw [KeysDistinctAll, ih, List.forall_mem_cons]

end Json

open Json (KeysDistinct KeysDistinctAll KeysDistinctIn)

theorem Value.keysDistinct_json (value : Value) : value.json.KeysDistinct := by
  cases value with
  | bits unused octets => simp [json, KeysDistinct, KeysDistinctIn]
  | integer | boolean | null | text | digits => simp [json, KeysDistinct]
  | oid | raw => simp [json]

theorem Value.keysDistinct_contentJson? (type : DeclaredType) (value : Option Octets) :
    (contentJson? type value).KeysDistinct := by
  cases value with
  | none => simp [contentJson?, KeysDistinct]
  | some octets =>
      rw [contentJson?, contentJson]
      split
      · exact keysDistinct_json _
      · exact Json.keysDistinct_hex octets

namespace Line

variable {nodes : List Node} {label : Label}

theorem keysDistinct_issue (issue : Issue) : (Line.issue issue).KeysDistinct := by
  simp [Line.issue, member, KeysDistinct, KeysDistinctIn]

theorem map_key_members (nodes : List Node) :
    (members nodes).map Prod.fst = nodes.map fun child => key child.label := by
  induction nodes with
  | nil => rfl
  | cons child rest ih => rw [members, List.map_cons, ih, List.map_cons]

theorem keysDistinctIn_members :
    KeysDistinctIn (members nodes) ↔ ∀ child ∈ nodes, (node child).KeysDistinct := by
  induction nodes with
  | nil => simp [members, KeysDistinctIn]
  | cons child rest ih => rw [members, KeysDistinctIn, ih, List.forall_mem_cons]

theorem keysDistinctAll_items :
    KeysDistinctAll (items nodes) ↔ ∀ child ∈ nodes, (node child).KeysDistinct := by
  induction nodes with
  | nil => simp [items, KeysDistinctAll]
  | cons child rest ih => rw [items, KeysDistinctAll, ih, List.forall_mem_cons]

theorem keysDistinct_leaf (label : Label) (value : Option Octets) :
    (node (.leaf label value)).KeysDistinct := by
  rw [node]
  exact Value.keysDistinct_contentJson? _ _

/-- In a branch that is not listed the nodes must have keys of their own. -/
theorem keysDistinct_branch :
    (node (.branch label nodes)).KeysDistinct ↔
      (isList label = false → (nodes.map fun child => key child.label).Nodup) ∧
        ∀ child ∈ nodes, (node child).KeysDistinct := by
  rw [node]
  cases isList label with
  | true => simp [KeysDistinct, keysDistinctAll_items]
  | false => simp [KeysDistinct, keysDistinctIn_members, map_key_members]

/-- The keys around a tree are not repeated. -/
theorem keysDistinct_ofTree {index offset : Nat} {root : Node} {issues : List Issue} :
    (ofTree index offset root issues).KeysDistinct ↔ (node root).KeysDistinct := by
  have listed : KeysDistinctAll (issues.map issue) := by
    rw [Json.keysDistinctAll_iff, List.forall_mem_map]
    exact fun issue _ => keysDistinct_issue issue
  rw [ofTree, ofContent, issueMembers]
  split <;> simp [KeysDistinct, KeysDistinctIn, member, listed]

end Line

end BerRecords
