import BerRecords.Proofs.Walk.Coverage

/-!
# What a walk gets through

Without recovery a walk gets through an element of which no issue is to be told. With it a walk
gets through all but two things: what is left out must be a leaf, and the element at the top must
have the form that its definition wants.
-/

set_option autoImplicit false

namespace BerRecords

def Attempt.Succeeds {σ α : Type} (ran : Except DecodeError α × σ) : Prop :=
  ∃ value after, ran = (.ok value, after)

namespace Attempt.Succeeds

variable {σ α β : Type} {first : Attempt σ α} {rest : α → Attempt σ β} {state : σ}
  {middle : α → σ → Prop}

theorem ok {value : α} {state : σ} : Succeeds (.ok value, state) :=
  ⟨value, state, rfl⟩

theorem bind (front : Succeeds (first.on state)) (yields : Yields middle (first.on state))
    (back : ∀ value after, middle value after → Succeeds ((rest value).on after)) :
    Succeeds ((first >>= rest).on state) := by
  obtain ⟨value, after, ran⟩ := front
  rw [on_bind, ran]
  exact back value after (yields value after ran)

/-- What comes after may depend on nothing that is known of the state between. -/
theorem seq (front : Succeeds (first.on state))
    (back : ∀ value after, Succeeds ((rest value).on after)) :
    Succeeds ((first >>= rest).on state) := by
  obtain ⟨value, after, ran⟩ := front
  rw [on_bind, ran]
  exact back value after

end Attempt.Succeeds

theorem Definition.branches_of_select {definition : Definition} {tag : Tag}
    {selection? : Option Selection} (selected : definition.select tag = .ok selection?) :
    definition.constructed? = some true := by
  cases definition with
  | record | collection | choice => rfl
  | scalar | any => cases selected

theorem Definition.select_of_branches {definition : Definition}
    (branches : definition.constructed? = some true) (tag : Tag) :
    ∃ selection?, definition.select tag = .ok selection? := by
  cases definition with
  | record | collection | choice => exact ⟨_, rfl⟩
  | scalar | any => cases branches

namespace Element

variable {encoding : TagEncoding}

mutual

/-- Whatever is left out inside the element is a leaf. -/
def Tolerable (definition : Definition) : Element encoding → Prop
  | .leaf .. => True
  | .branch _ inside =>
    definition.constructed? = some true → TolerableAll definition [] inside

def TolerableAll (definition : Definition) (selected : List Definition.Selection) :
    List (Element encoding) → Prop
  | [] => True
  | child :: rest =>
    let chosen := definition.accept selected child.heading.tag
    (match chosen with
      | none => child.heading.tag.constructed = false
      | some selection => Tolerable selection.definition child) ∧
      TolerableAll definition (selected ++ chosen.toList) rest

end

end Element

namespace Walk

open Attempt (Succeeds)
open Telling (writer)

variable {encoding : TagEncoding} {rules : Rules} {frames : List Frame} {path outerPath : String}
  {capture : Option Capture} {script front back : List Telling} {definition : Definition}
  {header : Header} {selected : List Definition.Selection}

/-- No issue is to be told, or the rules allow issues. -/
def Rules.Tolerates (rules : Rules) (script : List Telling) : Prop :=
  rules.recover = true ∨ Account.issues script = []

theorem Rules.tolerates_append :
    rules.Tolerates (front ++ back) ↔ rules.Tolerates front ∧ rules.Tolerates back := by
  rw [Tolerates, Tolerates, Tolerates, Account.issues_append, List.append_eq_nil_iff]
  exact or_and_left

theorem Rules.tolerates_event (event : FieldEvent) :
    rules.Tolerates (.event event :: script) ↔ rules.Tolerates script := by
  rw [Tolerates, Tolerates, Account.issues_cons]
  rfl

theorem Rules.tolerates_issue (issue : Issue) :
    rules.Tolerates (.issue issue :: script) ↔ rules.recover = true := by
  rw [Tolerates, Account.issues_cons]
  exact or_iff_left (List.cons_ne_nil _ _)

theorem Rules.tolerates_replaced :
    rules.Tolerates (Account.replaced path definition header) ↔ rules.recover = true :=
  tolerates_issue _

theorem Rules.tolerates_leftOut :
    rules.Tolerates (Account.leftOut path definition header) ↔ rules.recover = true := by
  obtain ⟨issue, -, -, told⟩ := Account.leftOut_eq path definition header
  rw [told]
  exact tolerates_issue issue

theorem succeeds_leaveOut (recovers : rules.recover = true) {mismatch : Mismatch}
    (within : mismatch.fieldLocal = true) (name : String) (walk : Walk (List Telling)) :
    Succeeds ((leaveOut rules writer name mismatch).on walk) := by
  rw [leaveOut, if_pos (by simp [recovers, within])]
  exact .ok

/-- A child is selected, or may be left out. -/
theorem succeeds_resolve (branches : definition.constructed? = some true)
    (constructed : header.constructed = true) (child : Header)
    (tolerated : definition.accept selected child.tag = none →
      rules.recover = true ∧ child.constructed = false) :
    Succeeds ((resolve rules writer child).on
      ⟨.following definition header selected outerPath :: frames, path, none, script⟩) := by
  have unnested : (definition.constructed? ≠ some true || !header.constructed) = false := by
    simp [branches, constructed]
  have leaves (left : definition.accept selected child.tag = none) (name : String)
      (cause : Disagreement) :
      Succeeds ((leaveOut rules writer name ⟨child.offset, path, cause, !child.constructed⟩).on
        ⟨.following definition header selected outerPath :: frames, path, none, script⟩) :=
    succeeds_leaveOut (tolerated left).1 (by simp [(tolerated left).2]) _ _
  rw [resolve, Attempt.on_bind, Attempt.on_get]
  dsimp only
  rw [resolveChild, Attempt.on_bind, Attempt.on_get]
  simp only [following_definition, following_header, unnested, Bool.false_eq_true, ↓reduceIte]
  obtain ⟨selection?, chosen⟩ := Definition.select_of_branches branches child.tag
  rw [chosen]
  cases selection? with
  | none => exact leaves (by simp [Definition.accept, chosen]) _ _
  | some selection =>
      dsimp only
      split
      · rename_i second
        have second : selected ≠ [] ∧ definition.isChoice = true := by
          simpa [List.length_pos_iff] using second
        exact leaves (by simp [Definition.accept, chosen, second]) _ _
      · exact .ok

theorem succeeds_startMisformed (recovers : rules.recover = true) (below : frames ≠ [])
    (definition : Definition) (header : Header) :
    Succeeds ((startMisformed rules writer definition header).on
      ⟨frames, path, capture, script⟩) := by
  rw [startMisformed, Attempt.on_bind, Attempt.on_get]
  dsimp only
  rw [Attempt.on_bind, push_ignored]
  dsimp only
  rw [Attempt.on_bind, Attempt.on_get]
  dsimp only
  rw [if_pos (by simp [recovers, isIdle, below])]
  exact .ok

theorem succeeds_closeChoice
    (tolerates : rules.Tolerates (Account.unchosen path definition header selected)) :
    Succeeds ((closeChoice rules writer (.following definition header selected outerPath)).on
      ⟨frames, path, capture, script⟩) := by
  simp only [closeChoice, following_definition, following_header]
  split
  · exact .ok
  · rename_i lacks
    rw [Account.unchosen, if_pos (by simpa [List.length_pos_iff, and_comm] using lacks),
      Rules.tolerates_issue] at tolerates
    rw [Attempt.on_bind, Attempt.on_get]
    dsimp only
    rw [if_pos tolerates]
    exact .ok

theorem succeeds_closeComponents (parent : String) (offset : Nat)
    (components : List (Definition × Bool)) (script : List Telling)
    (tolerates : rules.Tolerates (Account.missing path parent offset components)) :
    Succeeds ((closeComponents rules writer parent offset components).on
      ⟨frames, path, capture, script⟩) := by
  induction components generalizing script with
  | nil => exact .ok
  | cons component rest ih =>
      rw [Account.missing] at tolerates
      rw [closeComponents]
      split at tolerates
      · rename_i settled
        rw [if_pos settled]
        exact ih script tolerates
      · rename_i lacks
        rw [Rules.tolerates_issue] at tolerates
        rw [if_neg lacks, Attempt.on_bind, Attempt.on_get]
        dsimp only
        rw [if_pos tolerates, Attempt.on_bind, report_writer]
        dsimp only
        rw [Attempt.on_bind, tell_writer]
        exact ih _ (.inl tolerates)

theorem succeeds_closeRecord
    (tolerates : rules.Tolerates (Account.missing path definition.name header.offset
      ((definition.components?.getD []).zip
        ((definition.components?.getD []).mapIdx fun place _ =>
          selected.any (·.place = some place))))) :
    Succeeds ((closeRecord rules writer (.following definition header selected outerPath)).on
      ⟨frames, path, capture, script⟩) := by
  cases definition with
  | record head grouping components =>
      exact succeeds_closeComponents head.name header.offset _ script tolerates
  | scalar | collection | choice | any => exact .ok

theorem succeeds_close
    (tolerates : rules.Tolerates
      (Account.closing rules.mandatory path definition header selected)) :
    Succeeds ((close rules writer (.following definition header selected outerPath)).on
      ⟨frames, path, capture, script⟩) := by
  rw [Account.closing, Rules.tolerates_append] at tolerates
  rw [close]
  refine (succeeds_closeChoice tolerates.1).bind (yields_closeChoice definition header selected) ?_
  rintro _ _ rfl
  cases mandatory : rules.mandatory with
  | false => exact .ok
  | true =>
      rw [if_pos mandatory] at tolerates
      refine (succeeds_closeRecord tolerates.2).bind
        (yields_closeRecord definition header selected) ?_
      rintro _ _ rfl
      exact .ok

theorem succeeds_stop
    (tolerates : rules.Tolerates
      (Account.closing rules.mandatory path definition header selected)) :
    Succeeds ((stopElement rules writer header.tag).on
      ⟨.following definition header selected outerPath :: frames, path, none, script⟩) := by
  rw [stop_following rfl, Attempt.on_bind]
  exact (succeeds_close tolerates).seq fun _ _ => .ok

/-- An element without components of its own is left. -/
theorem succeeds_stop_plain (unstructured : definition.constructed? ≠ some true) :
    Succeeds ((stopElement rules writer header.tag).on
      ⟨.following definition header [] outerPath :: frames, path, none, script⟩) :=
  succeeds_stop (.inr (by rw [closing_eq_nil unstructured]; rfl))

theorem succeeds_nulled (element : Element encoding) (formed : element.Formed) (offset : Nat)
    (recovers : rules.recover = true) (below : frames ≠ []) :
    let header := element.heading.header offset
    Succeeds ((do startMisformed rules writer definition header
                  told rules writer (element.body offset)
                  stopElement rules writer header.tag).on ⟨frames, path, none, script⟩) := by
  intro header
  refine (succeeds_startMisformed recovers below definition header).bind
    (yields_startMisformed definition header) ?_
  rintro _ _ rfl
  have passed (script : List Telling) := @told_body_ignored _ encoding rules writer
    (extendPath path definition.name) script element formed (.nulled definition header path) rfl
    offset rfl frames
  rw [Attempt.on_bind, passed]
  dsimp only
  rw [stop_nulled]
  exact .ok

mutual

/-- A walk gets through an element that is tolerable, has the right form if it stands at the top,
and gives no issue that is not allowed. -/
theorem succeeds_element (element : Element encoding) (formed : element.Formed)
    {definition : Definition} (tolerable : element.Tolerable definition) {frames : List Frame}
    (placed : frames ≠ [] ∨ ¬element.Misformed definition) (path : String) (script : List Telling)
    (offset : Nat)
    (tolerates : rules.Tolerates
      (Account.ofElement rules.mandatory path definition offset element)) :
    Succeeds ((do startDefined rules writer definition (element.heading.header offset)
                  told rules writer (element.body offset)
                  stopElement rules writer element.heading.tag).on
      ⟨frames, path, none, script⟩) := by
  match element with
  | .leaf heading value =>
      have primitive : (heading.header offset).constructed = false := by
        rw [Element.Formed] at formed
        exact formed
      have nulled (recovers : rules.recover = true) (below : frames ≠ []) :=
        @succeeds_nulled encoding rules frames path script definition (.leaf heading value) formed
          offset recovers below
      rw [Account.ofElement, Rules.tolerates_append] at tolerates
      rw [startDefined, Element.heading, primitive]
      by_cases misformed : definition.constructed? = some true
      · rw [if_pos misformed, Rules.tolerates_replaced] at tolerates
        rw [if_pos (by simpa using misformed)]
        refine nulled tolerates.1 (placed.resolve_right (not_not_intro ?_))
        rw [Element.Misformed, Element.heading, show heading.tag.constructed = false from primitive]
        exact misformed
      · rw [if_neg (by simpa using misformed), Element.body, told_value]
        have ran := @leaf_writer rules frames path script definition _ primitive value
        exact ran ▸ succeeds_stop_plain misformed
  | .branch heading inside =>
      have nulled (recovers : rules.recover = true) (below : frames ≠ []) :=
        @succeeds_nulled encoding rules frames path script definition (.branch heading inside)
          formed offset recovers below
      rw [Element.Formed] at formed
      have constructed : (heading.header offset).constructed = true := formed.1
      rw [Account.ofElement, Rules.tolerates_append] at tolerates
      rw [startDefined, Element.heading, constructed]
      by_cases misformed : definition.constructed? = some false
      · rw [if_pos misformed, Rules.tolerates_replaced] at tolerates
        rw [if_pos (by simpa using misformed)]
        refine nulled tolerates.1 (placed.resolve_right (not_not_intro ?_))
        rw [Element.Misformed, Element.heading, formed.1]
        exact misformed
      · have fits : ¬definition.constructed? = some !true := misformed
        simp only [misformed, fits, ↓reduceIte, Element.body] at tolerates ⊢
        cases any : definition.isAny with
        | true =>
            have unstructured : definition.constructed? ≠ some true := by
              simp [Definition.constructed?_eq_none_iff.2 any]
            have ran := @any_writer encoding rules frames path script definition _ any constructed
              inside formed.2 (offset + heading.octets.length)
            exact ran ▸ succeeds_stop_plain unstructured
        | false =>
            have branches := Definition.constructed?_of_isAny_eq_false misformed any
            rw [Element.Tolerable] at tolerable
            simp only [any, Bool.false_eq_true, ↓reduceIte, Rules.tolerates_event,
              Rules.tolerates_append] at tolerates
            rw [Attempt.on_bind, startFollowed_writer]
            simp only [any, Bool.false_and, Bool.false_eq_true, ↓reduceIte]
            refine (succeeds_children inside formed.2 branches constructed [] (tolerable branches)
              _ _ _ _ _ tolerates.1.1).bind
              (yields_children inside formed.2 branches constructed [] frames path _ _ _) ?_
            rintro _ _ rfl
            exact succeeds_stop tolerates.1.2

theorem succeeds_children (children : List (Element encoding)) (formed : Element.FormedAll children)
    {definition : Definition} {header : Header} (branches : definition.constructed? = some true)
    (constructed : header.constructed = true) (selected : List Definition.Selection)
    (tolerable : Element.TolerableAll definition selected children)
    (frames : List Frame) (outerPath path : String) (script : List Telling) (offset : Nat)
    (tolerates : rules.Tolerates
      (Account.ofChildren rules.mandatory path definition offset selected children)) :
    Succeeds ((told rules writer (Element.signalsAll offset children)).on
      ⟨.following definition header selected outerPath :: frames, path, none, script⟩) := by
  match children with
  | [] =>
      rw [Element.signalsAll]
      exact .ok
  | child :: rest =>
      rw [Element.FormedAll] at formed
      rw [Element.TolerableAll] at tolerable
      rw [Account.ofChildren, Rules.tolerates_append] at tolerates
      rw [told_elements, Attempt.on_bind, startElement_on _ (by simp), ← Attempt.on_bind,
        bind_assoc]
      have tagged : (child.heading.header offset).tag = child.heading.tag := rfl
      cases chosen : definition.accept selected child.heading.tag with
      | none =>
          simp only [chosen, Option.toList_none, List.append_nil, Rules.tolerates_leftOut]
            at tolerable tolerates
          have leaf : (child.heading.header offset).constructed = false := tolerable.1
          refine (succeeds_resolve branches constructed _ fun _ => ⟨tolerates.1, leaf⟩).bind
            (yields_resolve branches constructed _) ?_
          rintro _ _ ⟨rfl, rfl⟩
          simp only [tagged, chosen, Option.map_none, Option.toList_none, List.append_nil]
          have passed := @told_body_ignored _ encoding rules writer path
            (script ++ Account.leftOut path definition (child.heading.header offset)) child formed.1
            (.bare (child.heading.header offset) .ignored path) rfl offset rfl
            (.following definition header selected outerPath :: frames)
          have stops := @stop_bare _ rules writer
            (.following definition header selected outerPath :: frames) path none
            (script ++ Account.leftOut path definition (child.heading.header offset))
            (child.heading.header offset) .ignored path child.heading.tag rfl (by decide)
          rw [Attempt.on_bind, push_bare]
          simp only [Attempt.on_bind, passed, stops]
          exact succeeds_children rest formed.2 branches constructed selected tolerable.2 frames
            outerPath path _ _ tolerates.2
      | some selection =>
          simp only [chosen, Option.toList_some] at tolerable tolerates
          refine (succeeds_resolve branches constructed _ fun left => ?_).bind
            (yields_resolve branches constructed _) ?_
          · cases chosen.symm.trans left
          · rintro _ _ ⟨rfl, rfl⟩
            simp only [tagged, chosen, Option.map_some, Option.toList_some, List.append_nil]
            let around := .following definition header (selected ++ [selection]) outerPath :: frames
            have grouped := @Succeeds.bind _ _ _ _ (fun _ => told rules writer (Element.signalsAll
              (offset + child.octets.length) rest)) _ _
              (succeeds_element child formed.1 tolerable.1 (.inl (List.cons_ne_nil _ _)) path script
                offset tolerates.1)
              (yields_element child formed.1 selection.definition around path script offset) (by
                rintro _ _ rfl
                exact succeeds_children rest formed.2 branches constructed (selected ++ [selection])
                  tolerable.2 frames outerPath path _ _ tolerates.2)
            simpa only [bind_assoc] using grouped

end

/-- A walk gets through a whole record. -/
theorem succeeds_record {element : Element encoding} (formed : element.Formed)
    (root : rules.schema.root? element.heading.tag = some definition)
    (tolerable : element.Tolerable definition) (fits : ¬element.Misformed definition) (offset : Nat)
    (tolerates : rules.Tolerates (Account.ofElement rules.mandatory "" definition offset element)) :
    (told rules writer (element.signals offset)).on (start []) =
      (.ok (), start (Account.ofElement rules.mandatory "" definition offset element)) := by
  have parts : told rules writer (element.signals offset) = (do
      startElement rules writer (element.heading.header offset)
      told rules writer (element.body offset)
      stopElement rules writer element.heading.tag) := by
    simp [told, Element.signals_eq, Visitor.tell, Visitor.tell_append, visitor]
  have resolved : (resolve rules writer (element.heading.header offset)).on
      ⟨[], "", none, []⟩ = (.ok (some definition), ⟨[], "", none, []⟩) := by
    simp [resolve, Heading.header, Attempt.on_bind, root]
  have succeeds : Succeeds ((told rules writer (element.signals offset)).on (start [])) := by
    rw [parts, start, Attempt.on_bind, startElement_on _ (by simp), ← Attempt.on_bind, bind_assoc,
      Attempt.on_bind, resolved]
    exact succeeds_element element formed tolerable (.inr fits) "" [] offset tolerates
  obtain ⟨⟨⟩, after, ran⟩ := succeeds
  obtain ⟨definition', root', rfl⟩ := yields_record element formed offset _ _ ran
  cases root.symm.trans root'
  exact ran

end Walk

namespace Account

variable {encoding : TagEncoding} {definition : Definition} {mandatory : Bool}

theorem issues_leftOut_ne_nil (path : String) (definition : Definition) (header : Header) :
    issues (leftOut path definition header) ≠ [] := by
  obtain ⟨issue, -, -, told⟩ := leftOut_eq path definition header
  rw [told]
  exact List.cons_ne_nil issue []

mutual

/-- Of what is tolerable only with recovery an issue is told. -/
theorem tolerable_of_issues (element : Element encoding) {definition : Definition} {path : String}
    {offset : Nat} (none_told : issues (ofElement mandatory path definition offset element) = []) :
    element.Tolerable definition := by
  match element with
  | .leaf heading value => simp [Element.Tolerable]
  | .branch heading inside =>
      rw [Element.Tolerable]
      intro branches
      rw [ofElement_followed branches, issues_cons, List.append_eq_nil_iff, issues_append,
        List.append_eq_nil_iff] at none_told
      exact tolerable_of_issues_all inside none_told.2.1

theorem tolerable_of_issues_all (children : List (Element encoding)) {definition : Definition}
    {path : String} {offset : Nat} {selected : List Definition.Selection}
    (none_told : issues (ofChildren mandatory path definition offset selected children) = []) :
    Element.TolerableAll definition selected children := by
  match children with
  | [] => simp [Element.TolerableAll]
  | child :: rest =>
      rw [ofChildren, issues_append, List.append_eq_nil_iff] at none_told
      rw [Element.TolerableAll]
      refine ⟨?_, tolerable_of_issues_all rest none_told.2⟩
      cases chosen : definition.accept selected child.heading.tag with
      | none =>
          simp only [chosen] at none_told
          exact absurd none_told.1 (issues_leftOut_ne_nil _ _ _)
      | some selection =>
          simp only [chosen] at none_told
          exact tolerable_of_issues child none_told.1

end

/-- Of what has the wrong form an issue is told. -/
theorem not_misformed_of_issues {element : Element encoding} (formed : element.Formed)
    {path : String} {offset : Nat}
    (none_told : issues (ofElement mandatory path definition offset element) = []) :
    ¬element.Misformed definition := by
  intro misformed
  rw [ofElement_misformed formed misformed] at none_told
  cases none_told

end Account

end BerRecords
