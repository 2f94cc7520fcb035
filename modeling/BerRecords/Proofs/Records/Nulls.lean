import BerRecords.Proofs.Records.Accounts
import BerRecords.Proofs.Records.Modes

/-!
# Nulls and the issues that announce them

Every field of a record for which null stands has an issue that says so, in the same order,
and no other issue says so. The summary of a whole stream counts what its records hold.
-/

set_option autoImplicit false

namespace BerRecords

namespace Field

def nulls (fields : List Field) : List (String × Nat) :=
  (fields.filter (·.value.isNone)).map fun field => (field.path, field.offset)

theorem nulls_append (front back : List Field) :
    nulls (front ++ back) = nulls front ++ nulls back := by
  rw [nulls, List.filter_append, List.map_append]
  rfl

theorem length_nulls (fields : List Field) :
    (nulls fields).length = fields.countP (·.value.isNone) := by
  rw [nulls, List.length_map, List.countP_eq_length_filter]

end Field

namespace Issue

def nulls (issues : List Issue) : List (String × Nat) :=
  (issues.filter (·.nulled)).map fun issue => (issue.path, issue.offset)

theorem nulls_append (front back : List Issue) :
    nulls (front ++ back) = nulls front ++ nulls back := by
  rw [nulls, List.filter_append, List.map_append]
  rfl

theorem length_nulls (issues : List Issue) : (nulls issues).length = issues.countP (·.nulled) := by
  rw [nulls, List.length_map, List.countP_eq_length_filter]

end Issue

namespace Account

variable {encoding : TagEncoding} {front back : List Telling}

/-- The nulls that a script tells as fields are those that it tells as issues. -/
def Announces (script : List Telling) : Prop :=
  Field.nulls (fields script) = Issue.nulls (issues script)

theorem Announces.append (front_announces : Announces front) (back_announces : Announces back) :
    Announces (front ++ back) := by
  have parts : fields (front ++ back) = fields front ++ fields back := List.filterMap_append
  have parts' : issues (front ++ back) = issues front ++ issues back := List.filterMap_append
  rw [Announces, parts, parts', Field.nulls_append, Issue.nulls_append, front_announces,
    back_announces]

theorem announces_replaced (path : String) (definition : Definition) (header : Header) :
    Announces (replaced path definition header) := rfl

theorem announces_valued (path : String) (definition : Definition) (header : Header)
    (value : Octets) : Announces (valued path definition header value) := rfl

theorem announces_leftOut (path : String) (definition : Definition) (header : Header) :
    Announces (leftOut path definition header) := by
  obtain ⟨issue, -, kept, told⟩ := leftOut_eq path definition header
  have unannounced : Issue.nulls [issue] = [] := by simp [Issue.nulls, kept]
  exact told ▸ unannounced.symm

theorem announces_unchosen (path : String) (definition : Definition) (header : Header)
    (selected : List Definition.Selection) :
    Announces (unchosen path definition header selected) := by
  rw [unchosen]
  split
  · rfl
  · rfl

/-- A missing component is announced and told at once, so that its null has its issue. -/
theorem announces_missing (path parent : String) (offset : Nat)
    (components : List (Definition × Bool)) :
    Announces (missing path parent offset components) := by
  induction components with
  | nil => rfl
  | cons component rest ih =>
      rw [missing]
      split
      · exact ih
      · have told (path : String) (cause : DecodeError) : Announces
            [.issue ⟨path, offset, cause, true⟩, .event (.missing component.1 path offset)] := rfl
        exact (told _ _).append ih

theorem announces_closing (mandatory : Bool) (path : String) (definition : Definition)
    (header : Header) (selected : List Definition.Selection) :
    Announces (closing mandatory path definition header selected) := by
  rw [closing]
  refine (announces_unchosen path definition header selected).append ?_
  split
  · exact announces_missing _ _ _ _
  · rfl

mutual

theorem announces_ofElement (mandatory : Bool) (element : Element encoding) (path : String)
    (definition : Definition) (offset : Nat) :
    Announces (ofElement mandatory path definition offset element) := by
  have leaving : Announces [.event .leave] := rfl
  match element with
  | .leaf heading value =>
      rw [ofElement]
      refine Announces.append ?_ leaving
      split
      · exact announces_replaced _ _ _
      · exact announces_valued _ _ _ _
  | .branch heading inside =>
      rw [ofElement]
      refine Announces.append ?_ leaving
      split
      · exact announces_replaced _ _ _
      · split
        · exact announces_valued _ _ _ _
        · have entering : Announces [.event (.enter definition (heading.header offset))] := rfl
          have children := announces_ofChildren mandatory inside
            (Walk.extendPath path definition.name) definition (offset + heading.octets.length) []
          exact entering.append (children.append (announces_closing _ _ _ _ _))

theorem announces_ofChildren (mandatory : Bool) (children : List (Element encoding))
    (path : String) (definition : Definition) (offset : Nat)
    (selected : List Definition.Selection) :
    Announces (ofChildren mandatory path definition offset selected children) := by
  match children with
  | [] =>
      rw [ofChildren]
      rfl
  | child :: rest =>
      rw [ofChildren]
      refine Announces.append ?_ (announces_ofChildren mandatory rest path definition _ _)
      cases definition.accept selected child.heading.tag with
      | none => exact announces_leftOut _ _ _
      | some selection => exact announces_ofElement mandatory child path selection.definition offset

end

end Account

namespace Summary

/-- The counts of a whole stream are those of its records and of its dropped elements. -/
theorem ofOutcomes_eq (outcomes : List (Outcome (List Field))) :
    let records := outcomes.filterMap Report.record?
    ofOutcomes outcomes =
      ⟨records.length, (outcomes.filterMap Outcome.dropped?).length,
        (records.flatMap (·.issues)).countP (·.nulled),
        (records.flatMap (·.issues)).countP (!·.nulled)⟩ := by
  have counted (summary : Summary) :
      let records := outcomes.filterMap Report.record?
      outcomes.foldl count summary = summary.add
        ⟨records.length, (outcomes.filterMap Outcome.dropped?).length,
          (records.flatMap (·.issues)).countP (·.nulled),
          (records.flatMap (·.issues)).countP (!·.nulled)⟩ := by
    induction outcomes generalizing summary with
    | nil => rfl
    | cons outcome rest ih =>
        rw [List.foldl_cons, ih]
        cases outcome with
        | failed => rfl
        | dropped =>
            simp only [count, add, List.filterMap_cons, Report.record?, Outcome.dropped?,
              List.length_cons, mk.injEq, true_and, and_true]
            omega
        | decoded =>
            simp only [count, add, List.filterMap_cons, Report.record?, Outcome.dropped?,
              List.length_cons, List.flatMap_cons, List.countP_append, mk.injEq, true_and]
            omega
  refine (counted zero).trans ?_
  simp only [add, zero, Nat.zero_add]

end Summary

namespace Records

variable {σ β : Type} {schema : Schema} {assembler : Assembler σ β} {options : DecodeOptions}
  {fresh : σ} {nested : List Bool → Nat → σ → Prop}

/-- Without recovery nothing is made up for. -/
theorem issues_of_strict {records after : Records σ} {index offset : Nat} {content : β}
    {issues : List Issue} (idle : records.walk = .start ⟨fresh, #[]⟩)
    (unforgiving : options.errorMode ≠ .skipField)
    (decoded : next schema assembler options records =
      (some (.decoded index offset content issues), after)) : issues = [] := by
  rcases options with ⟨_ | _ | _, mandatory, maxDepth⟩
  · have hastened := @hastened_next _ _ schema assembler mandatory maxDepth records
    rw [decoded] at hastened
    generalize dropping : next schema assembler ⟨.skipRecord, mandatory, maxDepth⟩ records =
      given at hastened
    cases hastened with
    | decoded => exact (next_skipField idle dropping).1
  · exact (next_skipField idle decoded).1
  · exact absurd rfl unforgiving

/-- What holds of every outcome asked of a fresh decoding holds of all outcomes of a run. -/
theorem forall_finish (nests : assembler.Nests fresh nested) {good : Outcome β → Prop}
    (each : ∀ {records after : Records σ} {outcome : Outcome β},
      records.walk = .start ⟨fresh, #[]⟩ →
      next schema assembler options records = (some outcome, after) → good outcome)
    {records : Records σ} (idle : records.walk = .start ⟨fresh, #[]⟩) :
    ∀ step ∈ (finish schema assembler options records).1, good step.outcome := by
  induction bound : records.ahead using Nat.strongRecOn generalizing records with
  | ind _ ih =>
      intro step member
      rw [finish_eq] at member
      rcases given : next schema assembler options records with ⟨_ | outcome, after⟩
      · rw [given] at member
        cases member
      · rw [given] at member
        have idle' := (@next_fresh _ _ schema _ options _ _ _ nests idle).1
        rw [given] at idle'
        rcases List.mem_cons.1 member with rfl | later
        · exact each idle given
        · exact ih _ (bound ▸ ahead_next given) idle' rfl step later

/-- The nulls among the fields of a record are announced in its issues, and without
recovery there are neither. -/
structure Announced (mode : ErrorMode) (fields : List Field) (issues : List Issue) : Prop where
  matched : Field.nulls fields = Issue.nulls issues
  strict : mode ≠ .skipField → issues = [] ∧ Field.nulls fields = []

theorem announced_of_decoded {records after : Records Collected} {index offset : Nat}
    {fields : List Field} {issues : List Issue}
    (idle : records.walk = .start ⟨Collected.empty, #[]⟩)
    (decoded : next schema .fields options records =
      (some (.decoded index offset fields issues), after)) :
    Announced options.errorMode fields issues := by
  obtain ⟨top, -, definition, -, -, -, -, kept, noted⟩ := told_of_decoded idle decoded
  have matched : Field.nulls fields = Issue.nulls issues := by
    rw [kept, noted]
    exact Account.announces_ofElement options.mandatory top "" definition offset
  refine ⟨matched, fun unforgiving => ?_⟩
  obtain rfl := issues_of_strict idle unforgiving decoded
  exact ⟨rfl, matched⟩

theorem announced_of_outcome {records after : Records Collected} {outcome : Outcome (List Field)}
    (idle : records.walk = .start ⟨Collected.empty, #[]⟩)
    (given : next schema .fields options records = (some outcome, after)) :
    ∀ record ∈ Report.record? outcome,
      Announced options.errorMode record.fields record.issues := by
  intro record member
  cases outcome with
  | dropped | failed => cases member
  | decoded =>
      cases member
      exact announced_of_decoded idle given

theorem announced_finish (schema : Schema) (options : DecodeOptions) (source : Source) :
    ∀ step ∈ (finish schema .fields options (ofSource schema options .empty source)).1,
      ∀ record ∈ Report.record? step.outcome,
        Announced options.errorMode record.fields record.issues :=
  @forall_finish _ _ schema .fields options _ _ Assembler.fields_nests
    (fun outcome => ∀ record ∈ Report.record? outcome,
      Announced options.errorMode record.fields record.issues)
    announced_of_outcome _ rfl

/-- In every record of fields the nulls among the fields are, in order, those announced
among the issues, and without recovery there are no nulls and no issues at all. The summary
of a whole stream counts its records, its dropped elements, the null fields of its records and
those of their issues that announce no null. -/
theorem nulls_announced (schema : Schema) (options : DecodeOptions) (source : Source) :
    (∀ step ∈ (finish schema .fields options (ofSource schema options .empty source)).1,
      ∀ record ∈ Report.record? step.outcome,
        Announced options.errorMode record.fields record.issues) ∧
      ∀ report, Report.ofSource schema options source = .ok report →
        report.summary.decoded = report.records.length ∧
          report.summary.dropped = report.dropped.length ∧
          report.summary.nulled =
            (report.records.flatMap (·.fields)).countP (·.value.isNone) ∧
          report.summary.skipped = (report.records.flatMap (·.issues)).countP (!·.nulled) := by
  have announced := announced_finish schema options source
  refine ⟨announced, ?_⟩
  intro report reported
  rw [Report.ofSource] at reported
  split at reported
  · cases reported
  · cases reported
    rw [Summary.ofOutcomes_eq]
    refine ⟨rfl, rfl, ?_, rfl⟩
    dsimp only
    rw [List.countP_flatMap, List.countP_flatMap]
    refine congrArg List.sum (List.map_congr_left ?_)
    intro record member
    obtain ⟨outcome, given, kept⟩ := List.mem_filterMap.1 member
    obtain ⟨step, told, rfl⟩ := List.mem_map.1 given
    have matched := congrArg List.length (announced step told record kept).matched
    rw [Field.length_nulls, Issue.length_nulls] at matched
    exact matched.symm

/-- A message in which a part has the wrong form, a leaf is unknown and a number is missing. -/
theorem nulls_announced_of_message :
    let message : Definition := .record ⟨"msg", some .sequence, false⟩ .sequence
      [.record ⟨"body", some (.context 0), false⟩ .sequence [],
        .scalar ⟨"id", some .integer, false⟩ .integer]
    let schema : Schema := ⟨[message], [message], .singleOctet⟩
    let options : DecodeOptions := ⟨.skipField, true, 8⟩
    let source : Source := .ofOctets [0x30, 0x06, 0x80, 0x01, 0x05, 0x04, 0x01, 0x41]
    (∃ step ∈ (finish schema .fields options (ofSource schema options .empty source)).1,
      ∃ record ∈ Report.record? step.outcome,
        Field.nulls record.fields = [("msg.body", 2), ("msg.id", 0)] ∧
          Announced options.errorMode record.fields record.issues) ∧
      ∃ report, Report.ofSource schema options source = .ok report ∧
        report.summary = ⟨1, 0, 2, 1⟩ ∧ report.records.length = 1 ∧
        (report.records.flatMap (·.fields)).countP (·.value.isNone) = 2 ∧
        (report.records.flatMap (·.issues)).countP (!·.nulled) = 1 := by
  intro message schema options source
  obtain ⟨announced, counted⟩ := nulls_announced schema options source
  constructor
  · have told : (finish schema .fields options (ofSource schema options .empty source)).1.map
        (fun step => (Report.record? step.outcome).map fun record => Field.nulls record.fields) =
          [some [("msg.body", 2), ("msg.id", 0)]] := by decide +kernel
    obtain ⟨step, only, nulls⟩ := List.map_eq_singleton_iff.1 told
    obtain ⟨record, kept, nulls⟩ := Option.map_eq_some_iff.1 nulls
    have member : step ∈
        (finish schema .fields options (ofSource schema options .empty source)).1 := by simp [only]
    exact ⟨step, member, record, kept, nulls, announced step member record kept⟩
  · have summed : (Report.ofSource schema options source).toOption.map (·.summary) =
        some ⟨1, 0, 2, 1⟩ := by decide +kernel
    rcases reported : Report.ofSource schema options source with error | report
    · rw [reported] at summed
      cases summed
    · rw [reported] at summed
      have summary : report.summary = ⟨1, 0, 2, 1⟩ := Option.some.inj summed
      obtain ⟨decoded, -, nulled, skipped⟩ := counted report reported
      rw [summary] at decoded nulled skipped
      exact ⟨report, rfl, summary, decoded.symm, nulled.symm, skipped.symm⟩

end Records

end BerRecords
