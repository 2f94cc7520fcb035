import BerRecords.Proofs.Line.Keys
import BerRecords.Proofs.Records.Agreement
import BerRecords.Proofs.Records.Building
import BerRecords.Proofs.Records.Lossless
import BerRecords.Proofs.Walk.Opened

/-!
# Keys of a record

When the line of a tree repeats a key. If inside every definition the names differ that can show, it
does so exactly if an element inside has a component twice, or lacks a choice whose own name another
member goes by.
-/

set_option autoImplicit false

namespace BerRecords

namespace Definition

variable {definition : Definition} {selected : List Selection} {selection : Selection} {tag : Tag}

/-- Whatever is selected was selected by a tag. -/
theorem select_of_mem_acceptAll {tags : List Tag}
    (member : selection ∈ definition.acceptAll selected tags) :
    selection ∈ selected ∨ ∃ tag, definition.select tag = .ok (some selection) := by
  induction tags generalizing selected with
  | nil => exact .inl member
  | cons tag rest ih =>
      rw [acceptAll] at member
      rcases ih member with earlier | later
      · rw [List.mem_append, Option.mem_toList] at earlier
        exact earlier.imp_right fun chosen => ⟨tag, select_of_accept chosen⟩
      · exact .inr later

theorem accept_eq_none_of_choice (choice : definition.isChoice = true) (tag : Tag) (first : Selection)
    (rest : List Selection) : definition.accept (first :: rest) tag = none := by
  rw [accept]
  split
  · simp [choice]
  · rfl

/-- A choice selects at most once. -/
theorem length_acceptAll_choice (choice : definition.isChoice = true) {tags : List Tag}
    (few : selected.length ≤ 1) : (definition.acceptAll selected tags).length ≤ 1 := by
  induction tags generalizing selected with
  | nil => exact few
  | cons tag rest ih =>
      rw [acceptAll]
      apply ih
      cases selected with
      | nil => cases definition.accept [] tag <;> simp
      | cons first others =>
          rw [accept_eq_none_of_choice choice]
          simpa using few

theorem not_confuses_of_other {mandatory : Bool} (other : definition.components? = none) :
    ¬definition.Confuses mandatory selected := by
  intro confuses
  cases confuses with
  | twice record => cases other.symm.trans record
  | missing _ lacks => simp [lacking, other] at lacks

end Definition

open Definition (Selection)

namespace Node

variable {encoding : TagEncoding} {mandatory : Bool} {definition : Definition}

theorem key_ofElement (element : Element encoding) (offset : Nat) :
    Line.key (ofElement mandatory definition offset element).label = definition.name.toList := by
  rw [label_ofElement]
  rfl

/-- The nodes inside an element go by the names of what was selected. -/
theorem map_key_ofChildren (children : List (Element encoding)) (offset : Nat)
    (selected : List Selection) :
    selected.map (·.definition.name.toList) ++
        (ofChildren mandatory definition offset selected children).map (Line.key ·.label) =
      (definition.acceptAll selected (children.map (·.heading.tag))).map
        (·.definition.name.toList) := by
  induction children generalizing offset selected with
  | nil => simp [ofChildren, Definition.acceptAll]
  | cons child rest ih =>
      rw [List.map_cons, Definition.acceptAll, ← ih (offset + child.octets.length), ofChildren]
      cases definition.accept selected child.heading.tag with
      | none => simp
      | some selection => simp [key_ofElement]

/-- The nodes inside an element go by the names of its members. -/
theorem map_key_followed (heading : Heading encoding) (inside : List (Element encoding))
    (offset : Nat) :
    let selected := definition.acceptAll [] (inside.map (·.heading.tag))
    (ofChildren mandatory definition (offset + heading.octets.length) [] inside ++
        if mandatory then (definition.lacking selected).map (ofMissing offset) else []).map
          (Line.key ·.label) =
      (definition.members mandatory selected).map (·.definition.name.toList) := by
  intro selected
  have chosen := @map_key_ofChildren _ mandatory definition inside (offset + heading.octets.length) []
  rw [List.map_nil, List.nil_append] at chosen
  rw [List.map_append, chosen, Definition.members, List.map_append]
  congr 1
  split
  · rw [List.map_map]
    rfl
  · rfl

theorem isList_ofHeader (branches : definition.constructed? = some true) (header : Header) :
    Line.isList (.ofHeader definition header) = false ↔
      definition.isChoice = true ∨ definition.components?.isSome = true := by
  cases definition with
  | scalar | any => cases branches
  | record head grouping | collection head grouping =>
      cases grouping <;> simp [Line.isList, Label.ofHeader, Definition.type, Definition.isChoice,
        Definition.components?, Grouping.recordType, Grouping.collectionType]
  | choice => simp [Line.isList, Label.ofHeader, Definition.type, Definition.isChoice]

/-- The keys of an element differ unless its definition confuses what is selected there. -/
theorem nodup_keys_iff (branches : definition.constructed? = some true)
    (apart : ((Definition.shownAll definition.parts).map (·.name)).Nodup) (header : Header)
    {tags : List Tag} {selected : List Selection} (chosen : definition.acceptAll [] tags = selected) :
    (Line.isList (.ofHeader definition header) = false →
        ((definition.members mandatory selected).map (·.definition.name.toList)).Nodup) ↔
      ¬definition.Confuses mandatory selected := by
  have names (selections : List Selection) :
      (selections.map (·.definition.name.toList)).Nodup ↔
        (selections.map (·.definition.name)).Nodup := by
    have distinct := @List.nodup_map_iff _ _ String.toList (selections.map (·.definition.name))
      fun _ _ => String.toList_inj.1
    rwa [List.map_map] at distinct
  rw [isList_ofHeader branches, names]
  cases definition with
  | scalar | any => cases branches
  | record head grouping components =>
      have selects : ∀ selection ∈ selected, ∃ tag,
          (Definition.record head grouping components).select tag = .ok (some selection) :=
        fun selection member =>
          (Definition.select_of_mem_acceptAll (chosen ▸ member)).resolve_left List.not_mem_nil
      have confused := @Definition.nodup_names_iff head grouping components selected mandatory apart selects
      simp [← confused, Definition.components?]
  | collection head grouping element =>
      have clear := @Definition.not_confuses_of_other (.collection head grouping element) selected
        mandatory rfl
      simp [clear, Definition.isChoice, Definition.components?]
  | choice head alternatives =>
      have clear := @Definition.not_confuses_of_other (.choice head alternatives) selected mandatory rfl
      have single : selected.length ≤ 1 :=
        chosen ▸ Definition.length_acceptAll_choice rfl (Nat.zero_le 1)
      have none_lacks : (Definition.choice head alternatives).lacking selected = [] := rfl
      have once : (selected.map (·.definition.name)).Nodup := by
        obtain _ | ⟨only, _ | ⟨other, more⟩⟩ := selected
        · exact List.nodup_nil
        · exact List.nodup_singleton _
        · simp at single
      simp [clear, once, Definition.members, none_lacks]

theorem mem_ofChildren_resolved {inside : List (Element encoding)} {front back : List (Element encoding)}
    {child : Element encoding} {selection : Selection} {offset : Nat}
    (stands : inside = front ++ child :: back)
    (chosen : definition.accept (definition.acceptAll [] (front.map (·.heading.tag)))
      child.heading.tag = some selection) :
    ofElement mandatory selection.definition (offset + (Element.octetsAll front).length) child ∈
      ofChildren mandatory definition offset [] inside := by
  rw [stands, ofChildren_append, ofChildren, chosen]
  simp

end Node

namespace Records

variable {schema : Schema} {options : DecodeOptions} {encoding : TagEncoding}
  {top inner : Element encoding} {offset place : Nat} {found : Option Definition}
  {root definition : Definition} {mandatory : Bool}

/-- Somewhere inside the element of a record two members go by one name. -/
def Confused (schema : Schema) (mandatory : Bool) (top : Element encoding) (offset : Nat) : Prop :=
  ∃ heading inside place definition,
    Resolves schema top offset (.branch heading inside) place (some definition) ∧
      definition.Confuses mandatory (definition.acceptAll [] (inside.map (·.heading.tag)))

theorem apart_of_resolves (apart : ∀ root ∈ schema.roots, root.TellsApart)
    (resolves : Resolves schema top offset inner place found) :
    ∀ definition ∈ found, definition.TellsApart := by
  induction resolves with
  | top claimed =>
      rintro _ ⟨⟩
      obtain ⟨root, member, claims⟩ := Definition.claims_of_claimAmong? claimed
      exact (apart root member).within claims.within
  | child _ _ ih =>
      intro definition selected
      rw [Option.mem_def, Option.map_eq_some_iff] at selected
      obtain ⟨selection, accepted, rfl⟩ := selected
      exact (ih _ rfl).within (Definition.within_of_select (Definition.select_of_accept accepted))

/-- If the line of a record repeats no key, no part of it does. -/
theorem keysDistinct_of_resolves (claimed : schema.root? top.heading.tag = some root)
    (distinct : (Line.node (.ofElement mandatory root offset top)).KeysDistinct)
    (resolves : Resolves schema top offset inner place found) :
    ∀ definition ∈ found,
      (Line.node (.ofElement mandatory definition place inner)).KeysDistinct := by
  induction resolves with
  | top claimed' =>
      rintro _ ⟨⟩
      cases claimed.symm.trans claimed'
      exact distinct
  | child _ branches ih =>
      intro definition selected
      rw [Option.mem_def, Option.map_eq_some_iff] at selected
      obtain ⟨selection, accepted, rfl⟩ := selected
      have whole := ih _ rfl
      rw [Node.ofElement_followed branches, Line.keysDistinct_branch] at whole
      exact whole.2 _ (List.mem_append_left _ (Node.mem_ofChildren_resolved rfl accepted))

mutual

theorem keysDistinct_ofElement (apart : ∀ root ∈ schema.roots, root.TellsApart)
    (clear : ¬Confused schema mandatory top offset)
    (inner : Element encoding) (place : Nat) (definition : Definition)
    (resolves : Resolves schema top offset inner place (some definition)) :
    (Line.node (.ofElement mandatory definition place inner)).KeysDistinct := by
  match inner with
  | .leaf heading value =>
      rw [Node.ofElement]
      exact Line.keysDistinct_leaf _ _
  | .branch heading inside =>
      by_cases branches : definition.constructed? = some true
      · rw [Node.ofElement_followed branches, Line.keysDistinct_branch, Node.map_key_followed,
          Node.nodup_keys_iff branches (apart_of_resolves apart resolves _ rfl _ (.refl _)) _ rfl]
        refine ⟨fun confuses => clear ⟨heading, inside, place, definition, resolves, confuses⟩, ?_⟩
        rw [List.forall_mem_append]
        constructor
        · exact keysDistinct_ofChildren apart clear inside heading [] place definition
            resolves branches
        · intro child missing
          split at missing
          · obtain ⟨selection, -, rfl⟩ := List.mem_map.1 missing
            exact Line.keysDistinct_leaf _ _
          · cases missing
      · rw [Node.ofElement]
        split
        · exact Line.keysDistinct_leaf _ _
        · rename_i fits
          split
          · exact Line.keysDistinct_leaf _ _
          · rename_i other
            exact absurd (Definition.constructed?_of_isAny_eq_false fits (Bool.eq_false_iff.2 other))
              branches

theorem keysDistinct_ofChildren (apart : ∀ root ∈ schema.roots, root.TellsApart)
    (clear : ¬Confused schema mandatory top offset)
    (back : List (Element encoding)) (heading : Heading encoding) (front : List (Element encoding))
    (place : Nat) (definition : Definition)
    (resolves : Resolves schema top offset (.branch heading (front ++ back)) place (some definition))
    (branches : definition.constructed? = some true) :
    ∀ node ∈ Node.ofChildren mandatory definition
        (place + heading.octets.length + (Element.octetsAll front).length)
        (definition.acceptAll [] (front.map (·.heading.tag))) back,
      (Line.node node).KeysDistinct := by
  match back with
  | [] => exact List.forall_mem_nil _
  | child :: rest =>
      rw [Node.ofChildren, List.forall_mem_append]
      have resolved := resolves.child branches
      constructor
      · intro node member
        split at member
        · cases member
        · rename_i selection accepted
          obtain rfl := List.mem_singleton.1 member
          rw [accepted] at resolved
          exact keysDistinct_ofElement apart clear child _ selection.definition resolved
      · have later := keysDistinct_ofChildren apart clear rest heading (front ++ [child]) place
          definition (by simpa using resolves) branches
        rw [List.map_append, List.map_singleton, Definition.acceptAll_snoc,
          Element.octetsAll_append, List.length_append, ← Nat.add_assoc] at later
        simpa [Element.octetsAll] using later

end

/-- The tree of an element repeats a key exactly if two members somewhere go by one name. -/
theorem keysDistinct_iff_not_confused (apart : ∀ root ∈ schema.roots, root.TellsApart)
    (claimed : schema.root? top.heading.tag = some root) :
    (Line.node (.ofElement mandatory root offset top)).KeysDistinct ↔
      ¬Confused schema mandatory top offset := by
  constructor
  · rintro distinct ⟨heading, inside, place, definition, resolves, confuses⟩
    have branches : definition.constructed? = some true := by
      cases definition with
      | record => rfl
      | scalar | collection | choice | any =>
          exact absurd confuses (Definition.not_confuses_of_other rfl)
    have own := keysDistinct_of_resolves claimed distinct resolves definition rfl
    rw [Node.ofElement_followed branches, Line.keysDistinct_branch, Node.map_key_followed,
      Node.nodup_keys_iff branches (apart_of_resolves apart resolves _ rfl _ (.refl _)) _ rfl] at own
    exact own.1 confuses
  · intro clear
    exact keysDistinct_ofElement apart clear top offset root (.top claimed)

/-- A record that is a tree is the tree of an element that stands in the source. -/
theorem tree_of_decoded {source : Source} {count index offset : Nat} {node : Node}
    {issues : List Issue} {after : Records TreeBuilder}
    (decoded : next schema .trees options
      (afterNexts schema .trees options (ofSource schema options .empty source) count) =
        (some (.decoded index offset node issues), after)) :
    ∃ (top : Element schema.encoding) (before rest : Octets) (definition : Definition),
      top.WellFormed ∧ source.held = before ++ (top.octets ++ rest) ∧
        before.length = offset + uncountedNexts schema .trees options
          (ofSource schema options .empty source) count ∧
        schema.root? top.heading.tag = some definition ∧
        node = .ofElement options.mandatory definition offset top := by
  have idle := @afterNexts_fresh _ _ schema _ options _ _ Assembler.trees_nests source count
  have takes := @takes_afterNexts _ _ schema .trees options (ofSource schema options .empty source)
    count
  generalize reached : afterNexts schema .trees options _ count = records at decoded idle takes
  have same : records.reader.encoding = schema.encoding := congrArg Prod.fst takes.settings_eq
  rw [← same]
  obtain ⟨top, rest, definition, state, rfl, wellFormed, passes, -, root, heard, finished, -⟩ :=
    heard_of_decoded Assembler.trees_nests Assembler.strict_trees idle decoded
  obtain ⟨before, held, counted⟩ := place_of_decoded reached.symm passes
  refine ⟨top, before, rest.held, definition, wellFormed, held, counted, root, ?_⟩
  cases (TreeBuilder.builds_ofElement options.mandatory top wellFormed.formed "" definition
    records.reader.offset _).symm.trans heard
  exact (Option.some.inj (congrArg Prod.fst finished)).symm

/-- The first record of a source, when a builder takes all that is said of the element at its
front. -/
theorem tree_of_front {source rest : Source} {top : Element schema.encoding}
    (wellFormed : top.WellFormed) (shallow : top.height ≤ options.maxDepth)
    (passes : source.Passes top.octets rest)
    (accepted : (((visitor schema .trees options).tell (top.signals 0)).on
      (.start ⟨.empty, #[]⟩)).1.isOk)
    (finished : (((visitor schema .trees options).tell (top.signals 0)).on
      (.start ⟨.empty, #[]⟩)).2.sink.inner.roots.back?.isSome) :
    ∃ node issues after, next schema .trees options (ofSource schema options .empty source) =
      (some (.decoded 0 0 node issues), after) := by
  generalize told : ((visitor schema .trees options).tell (top.signals 0)).on
    (.start ⟨.empty, #[]⟩) = reply at accepted finished
  obtain ⟨_ | ⟨⟩, walk⟩ := reply
  · cases accepted
  · obtain ⟨node, built⟩ := Option.isSome_iff_exists.1 finished
    exact ⟨node, _, _, @next_of_element _ _ schema .trees options
      (ofSource schema options .empty source) top walk _ _ _ rfl wellFormed shallow passes told
      (congrArg (·, _) built)⟩

/-- If inside every definition the names differ that can show, the line of a tree repeats a key
exactly if the element that the tree was made of has a component twice, or lacks a choice whose own
name another member goes by. -/
theorem key_repeats_iff_confused (apart : ∀ root ∈ schema.roots, root.TellsApart) {source : Source}
    {count index offset : Nat} {node : Node} {issues : List Issue} {after : Records TreeBuilder}
    (decoded : next schema .trees options
      (afterNexts schema .trees options (ofSource schema options .empty source) count) =
        (some (.decoded index offset node issues), after)) :
    let lost := uncountedNexts schema .trees options (ofSource schema options .empty source) count
    ∃ top : Element schema.encoding, top.WellFormed ∧ top.StandsIn source.held (offset + lost) ∧
      (¬(Line.ofTree index offset node issues).KeysDistinct ↔
        Confused schema options.mandatory top offset) := by
  intro lost
  obtain ⟨top, before, rest, definition, wellFormed, held, counted, claimed, rfl⟩ :=
    tree_of_decoded decoded
  refine ⟨top, wellFormed, ⟨before, rest, held, counted⟩, ?_⟩
  rw [Line.keysDistinct_ofTree, keysDistinct_iff_not_confused apart claimed, not_not]

/-- A message that has its number twice. -/
theorem key_repeats_of_two_numbers :
    let id : Definition := .scalar ⟨"id", some .integer, false⟩ .integer
    let message : Definition := .record ⟨"msg", some .sequence, false⟩ .sequence [id]
    let schema : Schema := ⟨[message], [message], .singleOctet⟩
    let options : DecodeOptions := ⟨.failFast, true, 8⟩
    let octets : Octets := [0x30, 0x06, 0x02, 0x01, 0x05, 0x02, 0x01, 0x06]
    ∃ node issues after, next schema .trees options
        (ofSource schema options .empty (.ofOctets octets)) =
          (some (.decoded 0 0 node issues), after) ∧
      ¬(Line.ofTree 0 0 node issues).KeysDistinct := by
  intro id message schema options octets
  let heading : Heading .singleOctet := .short 0x30 0x06 (by decide) (by decide)
  let number (octet : UInt8) : Element .singleOctet :=
    .leaf (.short 0x02 0x01 (by decide) (by decide)) [octet]
  let top : Element .singleOctet := .branch heading [number 5, number 6]
  have wellFormed : top.WellFormed := by
    simp only [top, number, heading, Element.WellFormed, Element.WellFormedAll]
    decide
  have delivers : (Source.ofOctets octets).Delivers (top.octets ++ []) :=
    Source.delivers_ofOctets octets
  obtain ⟨rest, passes, -⟩ := delivers.split
  have apart : ∀ root ∈ schema.roots, root.TellsApart := by
    intro root member parent within
    obtain rfl := List.mem_singleton.1 member
    cases within with
    | refl => decide
    | part member within =>
        obtain rfl := List.mem_singleton.1 member
        cases within with
        | refl => decide
        | part member => cases member
  obtain ⟨node, issues, after, decoded⟩ := @tree_of_front schema options (.ofOctets octets) rest top
    wellFormed (by decide) passes (by decide +kernel) (by decide +kernel)
  refine ⟨node, issues, after, decoded, ?_⟩
  obtain ⟨top', wellFormed', stands', repeats⟩ :=
    @key_repeats_iff_confused schema options apart _ 0 _ _ _ _ _ decoded
  have stands : top.StandsIn (Source.ofOctets octets).held 0 := ⟨[], [], by rfl, rfl⟩
  obtain rfl := stands'.unique stands wellFormed' wellFormed
  refine repeats.2 ⟨heading, _, 0, message, .top rfl, .twice rfl ?_⟩
  have twice : message.acceptAll [] [.integer, .integer] = [⟨some 0, id⟩, ⟨some 0, id⟩] := rfl
  rw [show [number 5, number 6].map (·.heading.tag) = [.integer, .integer] from rfl, twice]
  simp

end Records

end BerRecords
