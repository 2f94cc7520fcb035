import BerRecords.Proofs.Module.Written

/-!
# What can be written

The texts that say declarations leave none out: there is a text for just the declarations with ordinary
names, keywords for their built-in types, and tags of primitive form with numbers of 32 bits.
-/

set_option autoImplicit false

namespace BerRecords.Module

variable {text : List Char} {tag : Option Tag} {type : TypeExpr} {items : List Item}
  {declarations : List Declaration}

def WritableTag (tag : Option Tag) : Prop :=
  ∀ given ∈ tag, given.constructed = false ∧ given.number < UInt32.size

mutual

inductive WritableType : TypeExpr → Prop where
  | builtin {type : DeclaredType} : type ∈ DeclaredType.builtin → WritableType (.builtin type)
  | reference {name : String} : Ordinary name.toList → WritableType (.reference name)
  | record {grouping : Grouping} {items : List Item} : WritableItems items →
      WritableType (.record grouping items)
  | choice {items : List Item} : WritableItems items → WritableType (.choice items)
  | collection {grouping : Grouping} {element : TypeExpr} : WritableType element →
      WritableType (.collection grouping element)
  | any : WritableType (.any "")
  | anyDefinedBy {name : String} : Ordinary name.toList → WritableType (.any name)

inductive WritableItems : List Item → Prop where
  | nil : WritableItems []
  | componentsOf {source : String} {rest : List Item} : Ordinary source.toList → WritableItems rest →
      WritableItems (.componentsOf source :: rest)
  | component {name : String} {tag : Option Tag} {type : TypeExpr} {optional : Bool} {rest : List Item} :
      Ordinary name.toList → WritableTag tag → WritableType type → WritableItems rest →
      WritableItems (.component name tag type optional :: rest)

end

structure WritableDeclaration (declaration : Declaration) : Prop where
  name : Ordinary declaration.name.toList
  tag : WritableTag declaration.tag
  type : WritableType declaration.type

theorem isGap_blank : IsGap [' '] := by
  decide

theorem isGap_nil : IsGap [] := by
  decide

theorem apart_blank (left text : List Char) : Apart left (' ' :: text) := by
  intro c _ d first joint
  cases first
  cases joint.2

theorem exists_writtenClass (tagClass : TagClass) : ∃ words, WrittenClass tagClass words := by
  cases tagClass with
  | universal => exact ⟨_, .named (by decide : (_, "UNIVERSAL") ∈ _) isGap_blank (by decide)⟩
  | application => exact ⟨_, .named (by decide : (_, "APPLICATION") ∈ _) isGap_blank (by decide)⟩
  | privateUse => exact ⟨_, .named (by decide : (_, "PRIVATE") ∈ _) isGap_blank (by decide)⟩
  | context => exact ⟨[], .bare⟩

/-- A tag can be written in front of a blank, apart from whatever stands before it. -/
theorem exists_writtenTag (writable : WritableTag tag) :
    ∃ text, WrittenTag tag text ∧ ∀ left rest, Apart left (text ++ ' ' :: rest) := by
  cases tag with
  | none => exact ⟨[], .absent, apart_blank⟩
  | some given =>
      obtain ⟨tagClass, constructed, number⟩ := given
      obtain ⟨rfl, small⟩ : constructed = false ∧ number < UInt32.size := writable _ rfl
      obtain ⟨words, written⟩ := exists_writtenClass tagClass
      exact ⟨_, .bracketed isGap_blank isGap_nil written small isGap_nil .absent,
        fun left rest => apart_blank left _⟩

theorem exists_writtenBuiltin {type : DeclaredType} (member : type ∈ DeclaredType.builtin) :
    ∃ keywords, WrittenBuiltin type keywords := by
  have kinds : ∀ type ∈ DeclaredType.builtin, ' ' ∉ type.text.toList ∨ ∃ paired ∈ pairedTypes,
      paired.1 = type := by
    decide
  rcases kinds type member with single | ⟨paired, listed, rfl⟩
  · exact ⟨_, .single member single⟩
  · exact ⟨_, .paired listed isGap_blank (by decide)⟩

/-- The words that say whether a component may be left out, apart from its type. -/
theorem exists_writtenPresence (optional : Bool) :
    ∃ presence, WrittenPresence optional presence ∧ ∀ left, Apart left presence := by
  cases optional with
  | false => exact ⟨[], .required isGap_nil, fun _ _ _ _ first => by cases first⟩
  | true => exact ⟨_, .optional isGap_blank isGap_nil, fun left => apart_blank left _⟩

mutual

/-- A type can be written behind a blank. -/
theorem WritableType.exists_written : ∀ {type : TypeExpr}, WritableType type →
    ∃ text, WrittenType type (' ' :: text)
  | _, .builtin member => by
      obtain ⟨keywords, written⟩ := exists_writtenBuiltin member
      exact ⟨_, .builtin isGap_blank written .absent .absent⟩
  | _, .reference ordinary => by
      have written := WrittenType.reference isGap_blank ordinary .absent
      rw [String.ofList_toList] at written
      exact ⟨_, written⟩
  | _, .record items => by
      obtain ⟨inner, written⟩ := items.exists_written
      exact ⟨_, .record isGap_blank isGap_blank written⟩
  | _, .choice items => by
      obtain ⟨inner, written⟩ := items.exists_written
      exact ⟨_, .choice isGap_blank isGap_blank written⟩
  | _, .collection element => by
      obtain ⟨text, written⟩ := element.exists_written
      exact ⟨_, .collection isGap_blank .absent isGap_blank (apart_blank _ _) written (apart_blank _ _)⟩
  | _, .any => ⟨_, .any isGap_blank⟩
  | _, .anyDefinedBy ordinary => by
      have written := WrittenType.anyDefinedBy isGap_blank isGap_blank (by decide) isGap_blank (by decide)
        isGap_blank (by decide) ordinary
      rw [String.ofList_toList] at written
      exact ⟨_, written⟩

theorem WritableItems.exists_written : ∀ {items : List Item}, WritableItems items →
    ∃ text, WrittenItems items text
  | _, .nil => ⟨[], .last (.blank isGap_nil)⟩
  | _, .componentsOf ordinary others => by
      obtain ⟨text, written⟩ := others.exists_written
      have item := WrittenItem.componentsOf isGap_blank isGap_blank (by decide) isGap_blank (by decide)
        ordinary isGap_nil
      rw [String.ofList_toList] at item
      exact ⟨_, .more item written⟩
  | _, @WritableItems.component _ _ _ optional _ ordinary tag type others => by
      obtain ⟨text, written⟩ := others.exists_written
      obtain ⟨tagText, tagged, apart⟩ := exists_writtenTag tag
      obtain ⟨body, typed⟩ := type.exists_written
      obtain ⟨presence, told, apart'⟩ := exists_writtenPresence optional
      have item := WrittenItem.component isGap_blank ordinary tagged (apart _ body) typed
        (apart_blank _ body) told (apart' _)
      rw [String.ofList_toList] at item
      exact ⟨_, .more item written⟩

end

theorem WritableItems.append {others : List Item} (writable : WritableItems items)
    (writable' : WritableItems others) : WritableItems (items ++ others) := by
  induction items with
  | nil => exact writable'
  | cons item items ih =>
      cases writable with
      | componentsOf ordinary rest => exact .componentsOf ordinary (ih rest)
      | component ordinary tag type rest => exact .component ordinary tag type (ih rest)

theorem WrittenTag.writable (written : WrittenTag tag text) : WritableTag tag := by
  intro given member
  cases written with
  | absent => cases member
  | bracketed _ _ _ small =>
      cases member
      exact ⟨rfl, small⟩

mutual

theorem WrittenType.writable : ∀ {type : TypeExpr} {text : List Char}, WrittenType type text →
    WritableType type
  | _, _, .builtin _ written _ _ => by
      cases written with
      | single member => exact .builtin member
      | paired member =>
          have listed : ∀ paired ∈ pairedTypes, paired.1 ∈ DeclaredType.builtin := by
            decide
          exact .builtin (listed _ member)
  | _, _, .reference _ ordinary _ => .reference (by rwa [String.toList_ofList])
  | _, _, .record _ _ items => .record items.writable
  | _, _, .choice _ _ items => .choice items.writable
  | _, _, .collection _ _ _ _ element _ => .collection element.writable
  | _, _, .any _ => .any
  | _, _, .anyDefinedBy _ _ _ _ _ _ _ ordinary => .anyDefinedBy (by rwa [String.toList_ofList])

theorem WrittenItem.writable : ∀ {items : List Item} {text : List Char}, WrittenItem items text →
    WritableItems items
  | _, _, .blank _ => .nil
  | _, _, .mark _ _ => .nil
  | _, _, .componentsOf _ _ _ _ _ ordinary _ => .componentsOf (by rwa [String.toList_ofList]) .nil
  | _, _, .component _ ordinary tagged _ type _ _ _ =>
      .component (by rwa [String.toList_ofList]) tagged.writable type.writable .nil

theorem WrittenItems.writable : ∀ {items : List Item} {text : List Char}, WrittenItems items text →
    WritableItems items
  | _, _, .last item => item.writable
  | _, _, .more item others => item.writable.append others.writable

end

theorem WrittenAssignments.writable (written : WrittenAssignments declarations text) :
    ∀ declaration ∈ declarations, WritableDeclaration declaration := by
  induction written with
  | nil => exact fun _ member => absurd member List.not_mem_nil
  | cons _ _ ordinary _ tagged type _ _ ih =>
      refine List.forall_mem_cons.2 ⟨⟨?_, tagged.writable, type.writable⟩, ih⟩
      rwa [String.toList_ofList]

theorem exists_writtenAssignments
    (writable : ∀ declaration ∈ declarations, WritableDeclaration declaration) :
    ∃ text, WrittenAssignments declarations ('\n' :: text) := by
  induction declarations with
  | nil => exact ⟨[], .nil (by decide)⟩
  | cons declaration declarations ih =>
      obtain ⟨own, others⟩ := List.forall_mem_cons.1 writable
      obtain ⟨rest, written⟩ := ih others
      obtain ⟨tagText, tagged, -⟩ := exists_writtenTag own.tag
      obtain ⟨body, typed⟩ := own.type.exists_written
      have unindented : ∀ c ∈ [], c = ' ' := fun c member => absurd member List.not_mem_nil
      have assigned := WrittenAssignments.cons isGap_nil unindented own.name unindented tagged typed
        (apart_blank _ body) written
      rw [String.ofList_toList] at assigned
      exact ⟨_, assigned⟩

/-- Just the declarations in ordinary names can be written. -/
theorem exists_writtenModule_iff :
    (∃ text, WrittenModule declarations text) ↔
      ∀ declaration ∈ declarations, WritableDeclaration declaration := by
  constructor
  · rintro ⟨text, written⟩
    exact written.writable
  · exact exists_writtenAssignments

end BerRecords.Module
