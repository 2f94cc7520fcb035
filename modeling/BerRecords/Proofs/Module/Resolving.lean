import BerRecords.Proofs.Module.Expands
import BerRecords.Proofs.Schema.Reachable

/-!
# What expansion finds

The definitions that are kept while a module is expanded are those that their names stand for,
whatever was asked for before. So a name is given the definition that it stands for, with or without
the table, and what cannot be given one is told by an error. That a type is recursive is only said
of one that the name leads to and that leads back to itself.
-/

set_option autoImplicit false

namespace BerRecords

namespace Definition

/-! ## Errors about keys -/

theorem addClaims_ne_recursiveType {parent name : String}
    (seen table : List (Tag.Key × Definition)) :
    addClaims parent seen table ≠ .error (.recursiveType name) := by
  intro failed
  induction table generalizing seen with
  | nil => cases failed
  | cons entry rest ih =>
      rw [addClaims] at failed
      split at failed
      · cases failed
      · exact ih _ failed

theorem itemClaims_ne_recursiveType {name : String} (item : Definition) :
    item.itemClaims ≠ .error (.recursiveType name) := by
  unfold itemClaims
  split <;> exact nofun

theorem checkItems_ne_recursiveType {parent name : String} (seen : List (Tag.Key × Definition))
    (items : List Definition) :
    checkItems parent seen items ≠ .error (.recursiveType name) := by
  induction items generalizing seen with
  | nil => exact nofun
  | cons item rest ih =>
      intro failed
      rw [checkItems] at failed
      cases listed : item.itemClaims with
      | error error =>
          rw [listed] at failed
          cases failed
          exact itemClaims_ne_recursiveType item listed
      | ok table =>
          cases added : addClaims parent seen table with
          | error error =>
              simp only [listed, added, bind, Except.bind] at failed
              cases failed
              exact addClaims_ne_recursiveType seen table added
          | ok seen =>
              simp only [listed, added, bind, Except.bind] at failed
              exact ih seen failed

theorem map_ne_recursiveType {α β : Type} {name : String} {checked : Except SchemaError α}
    (f : α → β) (other : checked ≠ .error (.recursiveType name)) :
    checked.map f ≠ .error (.recursiveType name) := by
  cases checked with
  | error error =>
      intro failed
      cases failed
      exact other rfl
  | ok => exact nofun

theorem ofComponents_ne_recursiveType {parent name : String} {grouping : Grouping}
    (components : List Definition) :
    ofComponents parent grouping components ≠ .error (.recursiveType name) := by
  rw [ofComponents_eq]
  exact map_ne_recursiveType _ (checkItems_ne_recursiveType [] components)

theorem ofAlternatives_ne_recursiveType {parent name : String} (alternatives : List Definition) :
    ofAlternatives parent alternatives ≠ .error (.recursiveType name) := by
  rw [ofAlternatives_eq]
  exact map_ne_recursiveType _ (checkItems_ne_recursiveType [] alternatives)

end Definition

namespace Module

variable {module : Module} {α β : Type}

/-! ## Tables -/

/-- Every definition of the table is what its name stands for. -/
def Sound (module : Module) (table : List Definition) : Prop :=
  ∀ definition ∈ table, Expands module definition.name definition

theorem Sound.nil : Sound module [] :=
  fun _ member => by cases member

theorem Sound.expands {table : List Definition} {name : String} {definition : Definition}
    (sound : Sound module table) (found : table.find? (·.name = name) = some definition) :
    Expands module name definition := by
  have named : definition.name = name := by simpa using List.find?_some found
  exact named ▸ sound definition (List.mem_of_find?_eq_some found)

theorem Sound.cons {table : List Definition} {name : String} {definition : Definition}
    (sound : Sound module table) (expands : Expands module name definition) :
    Sound module (definition :: table) :=
  List.forall_mem_cons.2 ⟨expands.name_eq.symm ▸ expands, sound⟩

/-! ## Runs -/

namespace Expansion

theorem run_bind (first : Expansion α) (next : α → Expansion β) (table : List Definition) :
    (first >>= next).run table =
      match first.run table with
      | .ok (value, after) => (next value).run after
      | .error error => .error error := by
  rw [StateT.run_bind]
  cases first.run table <;> rfl

theorem run_get_bind (next : List Definition → Expansion α) (table : List Definition) :
    (get >>= next).run table = (next table).run table :=
  rfl

def kept (expansion : Expansion Definition) : Expansion Definition := do
  let definition ← expansion
  modify (definition :: ·)
  return definition

end Expansion

/-- From any sound table the computation ends with a value of which the property holds and with a
sound table, or it stops. It only says of a type that it is recursive if that leads back to itself
and one of the names leads to it. -/
def Finds (module : Module) (names : List String) (property : α → Prop) (expansion : Expansion α) :
    Prop :=
  ∀ table, Sound module table →
    match expansion.run table with
    | .ok (value, after) => property value ∧ Sound module after
    | .error error => ∀ name, error = .recursiveType name →
        module.Loops name ∧ ∃ origin ∈ names, module.Reaches origin name

/-- From any sound table the computation ends with the value and with a sound table. -/
def Yields (module : Module) (value : α) (expansion : Expansion α) : Prop :=
  ∀ table, Sound module table →
    ∃ after, expansion.run table = .ok (value, after) ∧ Sound module after

namespace Finds

variable {names others : List String} {property : α → Prop} {result : β → Prop}

theorem pure {value : α} (holds : property value) :
    Finds module names property (Pure.pure value) :=
  fun _ sound => ⟨holds, sound⟩

theorem led {expansion : Expansion α} (finds : Finds module names property expansion)
    (leads : ∀ origin ∈ names, ∃ other ∈ others, module.Reaches other origin) :
    Finds module others property expansion := by
  intro table sound
  have found := finds table sound
  revert found
  split
  · exact id
  · intro told name same
    obtain ⟨loops, origin, member, reaches⟩ := told name same
    obtain ⟨other, listed, first⟩ := leads origin member
    exact ⟨loops, other, listed, first.trans reaches⟩

theorem subset {expansion : Expansion α} (finds : Finds module names property expansion)
    (fewer : names ⊆ others) : Finds module others property expansion :=
  finds.led fun origin member => ⟨origin, fewer member, .refl⟩

theorem bind {first : Expansion α} {next : α → Expansion β}
    (begins : Finds module names property first)
    (goes : ∀ value, property value → Finds module names result (next value)) :
    Finds module names result (first >>= next) := by
  intro table sound
  have found := begins table sound
  rw [Expansion.run_bind]
  cases ran : first.run table with
  | error error =>
      rw [ran] at found
      exact found
  | ok ended =>
      rw [ran] at found
      exact goes ended.1 found.1 ended.2 found.2

theorem throw {error : SchemaError} (other : ∀ name, error ≠ .recursiveType name) :
    Finds module names property (MonadExcept.throw error) :=
  fun _ _ name same => absurd same (other name)

theorem ofChecked {property : Definition → Prop} {checked : Except SchemaError Definition}
    (other : ∀ name, checked ≠ .error (.recursiveType name))
    (holds : ∀ definition, checked = .ok definition → property definition) :
    Finds module names property (ofChecked checked) := by
  cases checked with
  | error error => exact .throw fun name same => other name (same ▸ rfl)
  | ok definition => exact .pure (holds definition rfl)

end Finds

namespace Yields

theorem pure (value : α) : Yields module value (Pure.pure value) :=
  fun table sound => ⟨table, rfl, sound⟩

theorem bind {first : Expansion α} {next : α → Expansion β} {value : α} {result : β}
    (begins : Yields module value first) (goes : Yields module result (next value)) :
    Yields module result (first >>= next) := by
  intro table sound
  obtain ⟨between, ran, sound⟩ := begins table sound
  obtain ⟨after, went, sound⟩ := goes between sound
  exact ⟨after, by rw [Expansion.run_bind, ran]; exact went, sound⟩

theorem ofChecked {checked : Except SchemaError Definition} {definition : Definition}
    (passed : checked = .ok definition) : Yields module definition (ofChecked checked) := by
  rw [passed]
  exact .pure definition

end Yields

/-! ## What types are found to stand for -/

section

variable {naming : Naming Expansion}

def FindsNames (module : Module) (naming : Naming Expansion) (names : List String) : Prop :=
  ∀ target ∈ names, ∀ source, Finds module [target] (Expands module target) (naming target source)

theorem ExpandsItems.append {item : Item} {items : List Item} {definitions others : List Definition}
    (first : ExpandsItems module [item] definitions) (rest : ExpandsItems module items others) :
    ExpandsItems module (item :: items) (definitions ++ others) := by
  cases first with
  | component type nothing =>
      cases nothing
      exact .component type rest
  | componentsOf source held nothing =>
      cases nothing
      rw [List.append_nil]
      exact .componentsOf source held rest

mutual

theorem expandType_finds (name : String) : ∀ type : TypeExpr,
    FindsNames module naming type.references →
      Finds module type.references (ExpandsType module name type) (expandType naming name type)
  | .builtin type, _ => by
      rw [expandType]
      exact .pure .builtin
  | .reference target, known => by
      rw [expandType]
      exact (known target (.head _) name).bind fun _ expands => .pure (.reference expands)
  | .record grouping items, known => by
      rw [expandType]
      exact (expandItems_finds name items known).bind fun components expands =>
        .ofChecked (fun _ => Definition.ofComponents_ne_recursiveType components)
          fun _ passed => .record expands passed
  | .collection grouping element, known => by
      unfold expandType
      split
      · rename_i target
        exact (known target (.head _) name).bind fun _ expands => .pure (.collectionOf expands)
      · rename_i inPlace
        exact (expandType_finds name element known).bind fun _ expands =>
          .pure (.collection inPlace expands)
  | .choice items, known => by
      rw [expandType]
      exact (expandItems_finds name items known).bind fun alternatives expands =>
        .ofChecked (fun _ => Definition.ofAlternatives_ne_recursiveType alternatives)
          fun _ passed => .choice expands passed
  | .any definedBy, _ => by
      rw [expandType]
      exact .pure .any

theorem expandItem_finds (parent : String) : ∀ item : Item,
    FindsNames module naming item.references →
      Finds module item.references (fun definitions => ExpandsItems module [item] definitions)
        (expandItem naming parent item)
  | .componentsOf source, known => by
      rw [expandItem]
      refine (known source (.head _) parent).bind fun definition expands => ?_
      split
      · rename_i components held
        exact .pure ((List.append_nil components) ▸ .componentsOf expands held .nil)
      · exact .throw nofun
  | .component name tag type optional, known => by
      unfold expandItem
      split
      · rename_i target
        exact (known target (.head _) parent).bind fun _ expands =>
          .pure (.component (.reference expands) .nil)
      · exact (expandType_finds name type known).bind fun _ expands =>
          .pure (.component expands .nil)

theorem expandItems_finds (parent : String) : ∀ items : List Item,
    FindsNames module naming (referencesAll items) →
      Finds module (referencesAll items) (ExpandsItems module items)
        (expandItems naming parent items)
  | [], _ => by
      rw [expandItems]
      exact .pure .nil
  | item :: rest, known => by
      rw [expandItems]
      have first := expandItem_finds parent item fun target member =>
        known target (List.mem_append_left _ member)
      have last := expandItems_finds parent rest fun target member =>
        known target (List.mem_append_right _ member)
      exact (first.subset (List.subset_append_left _ _)).bind fun _ expands =>
        (last.subset (List.subset_append_right _ _)).bind fun _ expands' =>
          .pure (expands.append expands')

end

end

/-! ## What names are found to stand for -/

/-- The names being expanded all lead to each of the names. -/
def Above (module : Module) (visiting names : List String) : Prop :=
  ∀ visited ∈ visiting, ∀ name ∈ names, Relation.TransGen module.Refers visited name

theorem Above.nil {names : List String} : Above module [] names :=
  fun _ member => by cases member

theorem Above.subset {visiting names fewer : List String} (above : Above module visiting names)
    (among : fewer ⊆ names) : Above module visiting fewer :=
  fun visited member name listed => above visited member name (among listed)

theorem Above.loops {visiting : List String} {name : String} (above : Above module visiting [name])
    (visited : visiting.contains name = true) : module.Loops name :=
  above name (by simpa using visited) name (.head _)

theorem Above.cons {visiting : List String} {name : String} {declaration : Declaration}
    (above : Above module visiting [name]) (declared : module.find? name = some declaration) :
    Above module (name :: visiting) declaration.type.references := by
  intro visited member target listed
  have refers : module.Refers name target := ⟨declaration, declared, listed⟩
  rcases List.mem_cons.1 member with rfl | earlier
  · exact .single refers
  · exact (above visited earlier name (.head _)).tail refers

theorem expandDeclaration_eq {m : Type → Type} [Monad m] [MonadExceptOf SchemaError m]
    [LawfulMonad m] (naming : Naming m) (declaration : Declaration) :
    expandDeclaration naming declaration = do
      return placed declaration.tag false
        (← expandType naming declaration.name declaration.type) := by
  rw [expandDeclaration]
  cases declaration.tag <;> rfl

section

variable {visiting : List String} {name : String}

theorem name_of_find? {declaration : Declaration}
    (declared : module.find? name = some declaration) : declaration.name = name := by
  rw [find?] at declared
  simpa using List.find?_some declared

def expandAfresh (module : Module) (visiting : List String) (name source : String) :
    Expansion Definition :=
  match module.find? name with
  | none => ofChecked (undeclared name source)
  | some declaration =>
    if visiting.contains name then throw (SchemaError.recursiveType name)
    else .kept (expandDeclaration (expandName module (name :: visiting)) declaration)

theorem run_expandName (source : String) (table : List Definition) :
    (expandName module visiting name source).run table =
      match table.find? (·.name = name) with
      | some definition => .ok (definition, table)
      | none => (expandAfresh module visiting name source).run table := by
  rw [expandName, Expansion.run_get_bind]
  cases table.find? (·.name = name) with
  | some definition => rfl
  | none =>
      dsimp only
      congr 1
      rw [expandAfresh]
      split
      · rename_i missing
        simp only [missing]
      · rename_i found
        simp only [found, Expansion.kept, dite_eq_ite]

theorem undeclared_ne_recursiveType (name source : String) {other : String} :
    undeclared name source ≠ .error (.recursiveType other) := by
  unfold undeclared
  split <;> exact nofun

theorem expands_of_undeclared {source : String} {definition : Definition}
    (missing : module.find? name = none) (given : undeclared name source = .ok definition) :
    Expands module name definition := by
  unfold undeclared at given
  split at given
  · rename_i type named
    cases given
    exact .builtin missing named
  · cases given

theorem Finds.kept {names : List String} {expansion : Expansion Definition}
    (finds : Finds module names (Expands module name) expansion) :
    Finds module names (Expands module name) (Expansion.kept expansion) :=
  finds.bind fun _ expands _ sound => ⟨expands, sound.cons expands⟩

theorem expandDeclaration_finds {naming : Naming Expansion} {declaration : Declaration}
    (declared : module.find? name = some declaration)
    (known : FindsNames module naming declaration.type.references) :
    Finds module declaration.type.references (Expands module name)
      (expandDeclaration naming declaration) := by
  rw [expandDeclaration_eq, name_of_find? declared]
  exact (expandType_finds name declaration.type known).bind fun _ expands =>
    .pure (.declared declared expands)

theorem expandName_finds (visiting : List String) (name source : String)
    (above : Above module visiting [name]) :
    Finds module [name] (Expands module name) (expandName module visiting name source) := by
  intro table sound
  rw [run_expandName]
  cases known : table.find? (·.name = name) with
  | some definition => exact ⟨sound.expands known, sound⟩
  | none =>
      refine (?_ : Finds module [name] (Expands module name) _) table sound
      rw [expandAfresh]
      cases declared : module.find? name with
      | none =>
          exact .ofChecked (fun _ => undeclared_ne_recursiveType name source)
            fun _ given => expands_of_undeclared declared given
      | some declaration =>
          by_cases visited : visiting.contains name = true
          · simp only [if_pos visited]
            rintro _ _ _ ⟨⟩
            exact ⟨above.loops visited, name, .head _, .refl⟩
          · simp only [if_neg visited]
            refine .kept (.led (expandDeclaration_finds declared ?_) fun target member =>
              ⟨name, .head _, .single ⟨declaration, declared, member⟩⟩)
            intro target member source
            exact expandName_finds (name :: visiting) target source
              ((above.cons declared).subset (List.cons_subset.2 ⟨member, List.nil_subset _⟩))
termination_by module.unvisited visiting
decreasing_by exact unvisited_cons_lt declared visited

end

/-! ## What stands for a definition is given it -/

theorem Yields.kept {name : String} {definition : Definition} {expansion : Expansion Definition}
    (yields : Yields module definition expansion) (expands : Expands module name definition) :
    Yields module definition (Expansion.kept expansion) :=
  yields.bind fun _ sound => ⟨_, rfl, sound.cons expands⟩

/-- A definition from the table is the one that the name is given without it. -/
theorem Yields.named {name : String} {definition : Definition} {visiting : List String}
    (source : String) (expands : Expands module name definition)
    (yields : Yields module definition (expandAfresh module visiting name source)) :
    Yields module definition (expandName module visiting name source) := by
  intro table sound
  rw [run_expandName]
  cases known : table.find? (·.name = name) with
  | some other =>
      cases expands.unique (sound.expands known)
      exact ⟨table, rfl, sound⟩
  | none => exact yields table sound

mutual

theorem Expands.yields {name : String} {definition : Definition} {visiting : List String} :
    Expands module name definition → Above module visiting [name] →
      ∀ source, Yields module definition (expandName module visiting name source)
  | .declared declared type, above, source => by
      refine .named source (.declared declared type) ?_
      have first := (type.yields (above.cons declared)).1
      have apart : ¬ visiting.contains name = true := fun visited =>
        not_expands_of_loops .refl (above.loops visited) (.declared declared type)
      simp only [expandAfresh, declared, if_neg apart, expandDeclaration_eq, name_of_find? declared]
      exact Yields.kept (first.bind (.pure _)) (.declared declared type)
  | .builtin missing named, above, source => by
      refine .named source (.builtin missing named) ?_
      simp only [expandAfresh, missing, undeclared, named]
      exact .ofChecked rfl

theorem ExpandsType.yields {name : String} {type : TypeExpr} {definition : Definition}
    {visiting : List String} :
    ExpandsType module name type definition → Above module visiting type.references →
      Yields module definition (expandType (expandName module visiting) name type) ∧
        ∀ target, type = .reference target → ∃ named, definition = named.renamed name ∧
          ∀ source, Yields module named (expandName module visiting target source)
  | .builtin, _ => by
      refine ⟨?_, nofun⟩
      rw [expandType]
      exact .pure _
  | .reference expands, above => by
      refine ⟨?_, ?_⟩
      · rw [expandType]
        exact (expands.yields above name).bind (.pure _)
      · rintro _ ⟨⟩
        exact ⟨_, rfl, expands.yields above⟩
  | .record items passed, above => by
      refine ⟨?_, nofun⟩
      rw [expandType]
      exact (items.yields above name).bind (.ofChecked passed)
  | .collectionOf expands, above => by
      refine ⟨?_, nofun⟩
      unfold expandType
      exact (expands.yields above name).bind (.pure _)
  | .collection inPlace element, above => by
      refine ⟨?_, nofun⟩
      unfold expandType
      split
      · exact absurd rfl (inPlace _)
      · exact (element.yields above).1.bind (.pure _)
  | .choice items passed, above => by
      refine ⟨?_, nofun⟩
      rw [expandType]
      exact (items.yields above name).bind (.ofChecked passed)
  | .any, _ => by
      refine ⟨?_, nofun⟩
      rw [expandType]
      exact .pure _

theorem ExpandsItems.yields {items : List Item} {definitions : List Definition}
    {visiting : List String} :
    ExpandsItems module items definitions → Above module visiting (referencesAll items) →
      ∀ parent, Yields module definitions (expandItems (expandName module visiting) parent items)
  | .nil, _, _ => by
      rw [expandItems]
      exact .pure _
  | .component type rest, above, parent => by
      have first := type.yields (above.subset (List.subset_append_left _ _))
      have last := rest.yields (above.subset (List.subset_append_right _ _)) parent
      rw [expandItems]
      refine Yields.bind (?_ : Yields module [_] _) (last.bind (.pure _))
      unfold expandItem
      split
      · obtain ⟨named, rfl, yields⟩ := first.2 _ rfl
        exact (yields parent).bind (.pure _)
      · exact first.1.bind (.pure _)
  | .componentsOf expands held rest, above, parent => by
      have first := expands.yields (above.subset (List.subset_append_left _ _)) parent
      have last := rest.yields (above.subset (List.subset_append_right _ _)) parent
      rw [expandItems, expandItem]
      refine Yields.bind (first.bind ?_) (last.bind (.pure _))
      rw [held]
      exact .pure _

end

theorem Expands.yields_root {name : String} {definition : Definition}
    (expands : Expands module name definition) (source : String) :
    Yields module definition (expandName module [] name source) :=
  expands.yields .nil source

/-! ## Names asked for one after another -/

theorem Finds.mapM {naming : String → Expansion Definition} (names : List String)
    (each : ∀ name ∈ names, Finds module [name] (Expands module name) (naming name)) :
    Finds module names (fun _ => True) (names.mapM naming) := by
  induction names with
  | nil =>
      rw [List.mapM_nil]
      exact .pure trivial
  | cons name rest ih =>
      rw [List.mapM_cons]
      have later := ih fun other member => each other (.tail _ member)
      exact ((each name (.head _)).subset (List.cons_subset_cons _ (List.nil_subset _))).bind
        fun _ _ => (later.subset (List.subset_cons_self _ _)).bind fun _ _ => .pure trivial

theorem Finds.of_ok {names : List String} {property : α → Prop} {expansion : Expansion α}
    {table after : List Definition} {value : α} (finds : Finds module names property expansion)
    (sound : Sound module table) (ran : expansion.run table = .ok (value, after)) :
    property value ∧ Sound module after := by
  have found := finds table sound
  rwa [ran] at found

theorem Finds.of_recursive {names : List String} {property : α → Prop} {expansion : Expansion α}
    {table : List Definition} {name : String} (finds : Finds module names property expansion)
    (sound : Sound module table) (ran : expansion.run table = .error (.recursiveType name)) :
    module.Loops name ∧ ∃ origin ∈ names, module.Reaches origin name := by
  have found := finds table sound
  rw [ran] at found
  exact found name rfl

/-- Whatever names were asked for before, a name is given a definition exactly if it stands for one,
and that is the one that it is given; every definition that is kept is the one that its own name
stands for. A type is only said to be recursive if the name leads to it and it leads back to itself,
and a name that leads to such a type is given nothing. -/
theorem resolved_iff_expands {earlier : List String} {definitions found : List Definition}
    (asked : (earlier.mapM fun name => expandName module [] name rootSource).run [] =
      .ok (definitions, found)) (name source : String) :
    (∀ definition, (∃ after, (expandName module [] name source).run found =
        .ok (definition, after)) ↔ Expands module name definition) ∧
      (∀ definition after, (expandName module [] name source).run found =
        .ok (definition, after) → Sound module after) ∧
      (∀ recursive, (expandName module [] name source).run found =
        .error (.recursiveType recursive) →
          module.Reaches name recursive ∧ module.Loops recursive) ∧
      ∀ recursive, module.Reaches name recursive → module.Loops recursive →
        ∀ definition after, (expandName module [] name source).run found ≠
          .ok (definition, after) := by
  have finds (name source : String) :
      Finds module [name] (Expands module name) (expandName module [] name source) :=
    expandName_finds [] name source .nil
  have sound := ((Finds.mapM earlier fun name _ => finds name rootSource).of_ok .nil asked).2
  refine ⟨fun definition => ⟨?_, ?_⟩, ?_, ?_, ?_⟩
  · rintro ⟨after, ran⟩
    exact ((finds name source).of_ok sound ran).1
  · intro expands
    obtain ⟨after, ran, -⟩ := expands.yields_root source found sound
    exact ⟨after, ran⟩
  · exact fun definition after ran => ((finds name source).of_ok sound ran).2
  · intro recursive ran
    obtain ⟨loops, origin, listed, reaches⟩ := (finds name source).of_recursive sound ran
    obtain rfl := List.mem_singleton.1 listed
    exact ⟨reaches, loops⟩
  · intro recursive reaches loops definition after ran
    exact not_expands_of_loops reaches loops ((finds name source).of_ok sound ran).1

theorem resolved_after_another :
    let common : Definition := .record ⟨"Common", some .sequence, false⟩ .sequence
      [.scalar ⟨"id", some ⟨.context, false, 0⟩, false⟩ .integer]
    let call : Definition := .record ⟨"Call", some ⟨.application, true, 1⟩, false⟩ .set
      [.scalar ⟨"id", some ⟨.context, false, 0⟩, false⟩ .integer,
        .scalar ⟨"flag", some ⟨.context, false, 2⟩, true⟩ .boolean]
    let module : Module := ⟨[
      ⟨"Common", none, .record .sequence
        [.component "id" (some ⟨.context, false, 0⟩) (.builtin .integer) false]⟩,
      ⟨"Flag", some ⟨.context, false, 1⟩, .builtin .boolean⟩,
      ⟨"Call", some ⟨.application, false, 1⟩, .record .set
        [.componentsOf "Common",
          .component "flag" (some ⟨.context, false, 2⟩) (.reference "Flag") true]⟩,
      ⟨"List", none, .collection .sequence (.reference "List")⟩]⟩
    ∃ found, (["Common"].mapM fun name => expandName module [] name rootSource).run [] =
        .ok ([common], found) ∧
      (∃ after, (expandName module [] "Call" rootSource).run found = .ok (call, after)) ∧
      ∀ definition after, (expandName module [] "List" rootSource).run found ≠
        .ok (definition, after) := by
  intro common call module
  have standsFor {name : String} {declaration : Declaration} {definition result : Definition}
      (declared : module.find? name = some declaration)
      (type : ExpandsType module name declaration.type definition)
      (same : placed declaration.tag false definition = result) : Expands module name result :=
    same ▸ .declared declared type
  have expands : Expands module "Common" common :=
    standsFor rfl (.record (.component .builtin .nil) rfl) rfl
  have flag : Expands module "Flag" (.scalar ⟨"Flag", some ⟨.context, false, 1⟩, false⟩ .boolean) :=
    standsFor rfl .builtin rfl
  have expands' : Expands module "Call" call :=
    standsFor rfl (.record (.componentsOf expands rfl (.component (.reference flag) .nil)) rfl) rfl
  have refers : module.Refers "List" "List" := ⟨_, rfl, .head _⟩
  have asks : Yields module [common]
      (["Common"].mapM fun name => expandName module [] name rootSource) := by
    rw [List.mapM_cons, List.mapM_nil]
    exact (expands.yields_root rootSource).bind (.pure [common])
  obtain ⟨found, asked, -⟩ := asks [] .nil
  exact ⟨found, asked, ((resolved_iff_expands asked "Call" rootSource).1 call).2 expands',
    (resolved_iff_expands asked "List" rootSource).2.2.2 "List" .refl (.single refers)⟩

/-! ## Schemas -/

structure SoundDraft (module : Module) (draft : Schema.Draft) : Prop where
  types : Sound module draft.types
  roots : Sound module draft.roots
  resolved : draft.rootNames = []

theorem SoundDraft.define {draft : Schema.Draft} {definition : Definition}
    (sound : SoundDraft module draft) (expands : Expands module definition.name definition) :
    SoundDraft module (draft.define definition) :=
  ⟨List.forall_mem_cons.2 ⟨expands, fun other member =>
    sound.types other (List.mem_filter.1 member).1⟩, sound.roots, sound.resolved⟩

theorem SoundDraft.root {draft : Schema.Draft} {definition : Definition}
    (sound : SoundDraft module draft) (expands : Expands module definition.name definition) :
    SoundDraft module (draft.root definition) := by
  refine ⟨(sound.define expands).types, fun other member => ?_, sound.resolved⟩
  rcases List.mem_append.1 member with earlier | last
  · exact sound.roots other earlier
  · exact List.mem_singleton.1 last ▸ expands

theorem expandRoots_finds {draft : Schema.Draft} (sound : SoundDraft module draft)
    (roots : List String) :
    Finds module roots (SoundDraft module) (expandRoots module draft roots) := by
  induction roots generalizing draft with
  | nil =>
      rw [expandRoots]
      exact .pure sound
  | cons root rest ih =>
      rw [expandRoots]
      have found : Finds module [root] (Expands module root) _ :=
        expandName_finds [] root rootSource .nil
      have goes := (found.subset (List.cons_subset_cons _ (List.nil_subset rest))).bind
        fun definition expands =>
          (ih (sound.root (expands.name_eq.symm ▸ expands))).subset
            (List.subset_cons_self root rest)
      split
      · have stopped : Finds module (root :: rest) (fun _ : PUnit => False)
            (throw (SchemaError.unknownRoot root)) := .throw nofun
        exact stopped.bind fun _ impossible => impossible.elim
      · exact goes

theorem SoundDraft.build {draft : Schema.Draft} {schema : Schema} (sound : SoundDraft module draft)
    (built : draft.build = .ok schema) :
    Sound module schema.types ∧ Sound module schema.roots := by
  have listed : draft.listed = draft.roots := by
    rw [Schema.Draft.listed, sound.resolved]
    exact List.append_nil _
  rw [Schema.Draft.types_of_build built,
    Schema.Draft.roots_of_build (Schema.Draft.rooted_of_build built) built, listed]
  exact ⟨sound.types, sound.roots⟩

theorem SoundDraft.defineAll {draft : Schema.Draft} {definitions : List Definition}
    (sound : SoundDraft module draft) (others : Sound module definitions) :
    SoundDraft module (definitions.foldr Schema.Draft.define draft) := by
  induction definitions with
  | nil => exact sound
  | cons definition rest ih =>
      rw [Sound, List.forall_mem_cons] at others
      exact (ih others.2).define others.1

/-- Every definition of a schema, and every root, is what its name stands for in the module. -/
theorem expands_of_schema {roots : List String} {encoding : TagEncoding} {schema : Schema}
    (made : module.schema roots encoding = .ok schema) :
    Sound module schema.types ∧ Sound module schema.roots := by
  rw [Module.schema] at made
  simp only [bind, Except.bind] at made
  split at made
  · cases made
  · split at made
    · cases made
    · rename_i expanded
      have empty : SoundDraft module (.empty encoding) := ⟨.nil, .nil, rfl⟩
      obtain ⟨sound, found⟩ := (expandRoots_finds empty _).of_ok .nil expanded
      refine (sound.defineAll fun other member => ?_).build made
      exact found other (List.mem_filter.1 member).1

end Module

end BerRecords
