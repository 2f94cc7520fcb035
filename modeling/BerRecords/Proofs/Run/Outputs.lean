import BerRecords.Proofs.Run.Turns

/-!
# Outputs

An output is named after the file name of its input, so all inputs of one file name share an output,
and the last of them that can be opened is what it holds at the end. An output may also lead to the
place of an input whose turn is still to come, which then holds the lines of another. The files are
those of any tree without links.
-/

set_option autoImplicit false

namespace BerRecords

namespace Files

variable {files between after : Files} {place : Place} {path directory name : String}
  {octets : Octets}

/-! ## Files that change -/

structure SameDirectories (files after : Files) : Prop where
  here : after.here = files.here
  opens : ∀ place, Opens after.look place ↔ Opens files.look place

theorem SameDirectories.refl (files : Files) : SameDirectories files files :=
  ⟨rfl, fun _ => Iff.rfl⟩

theorem SameDirectories.leads_iff (same : SameDirectories files after) :
    leads after.look after.here path = .ok place ↔
      leads files.look files.here path = .ok place := by
  rw [same.here]
  exact ⟨leads_of_opens fun place => (same.opens place).1,
    leads_of_opens fun place => (same.opens place).2⟩

theorem not_opens_of_file {look : Place → Option Entry} (file : look place = some (.file octets)) :
    ¬ Opens look place :=
  fun ⟨_, directory⟩ => by cases file.symm.trans directory

/-- A file is put at a place that is no directory, and nothing else is changed. -/
structure Overwrites (files : Files) (place : Place) (octets : Octets) (after : Files) : Prop where
  here : after.here = files.here
  free : ¬ Opens files.look place
  look : after.look = fun other =>
    if other = place then some (.file octets) else files.look other

theorem Overwrites.look_self (overwrites : Overwrites files place octets after) :
    after.look place = some (.file octets) := by
  rw [overwrites.look]
  exact if_pos rfl

theorem Overwrites.look_of_ne (overwrites : Overwrites files place octets after) {other : Place}
    (apart : other ≠ place) : after.look other = files.look other := by
  rw [overwrites.look]
  exact if_neg apart

theorem Overwrites.sameDirectories (overwrites : Overwrites files place octets after) :
    SameDirectories files after := by
  refine ⟨overwrites.here, fun other => ?_⟩
  by_cases same : other = place
  · subst same
    exact iff_of_false (not_opens_of_file overwrites.look_self) overwrites.free
  · rw [Opens, overwrites.look_of_ne same, Opens]

/-- The path leads to the place, where a file of the octets is, or a device, which keeps nothing. -/
structure KeepsAt (files : Files) (path : String) (place : Place) (octets : Octets) : Prop where
  leads : Files.leads files.look files.here path = .ok place
  open_ended : wantsDirectory path = false
  kept : files.look place = some (.file octets) ∨ files.look place = some .device

/-- Writing to a file name in a directory puts the file there, unless a device is there. -/
theorem write_inside (plain : Path.Plain name)
    (written : files.write (Path.inside directory name) octets = .ok after) :
    ∃ parent, base files.look files.here directory = .ok parent ∧
      KeepsAt after (Path.inside directory name) (parent ++ [name]) octets ∧
        (after = files ∨ Overwrites files (parent ++ [name]) octets after) := by
  obtain ⟨place, led, wanted, changed⟩ := write_eq_ok_iff.1 written
  obtain ⟨parent, based, within, rfl⟩ := base_of_leads plain led
  refine ⟨parent, based, ?_⟩
  rcases changed with ⟨device, rfl⟩ | ⟨-, free, rfl⟩
  · exact ⟨⟨led, wanted, .inr device⟩, .inl rfl⟩
  · have overwrites : Overwrites files (parent ++ [name]) octets
        (files.put (parent ++ [name]) (.file octets)) := ⟨rfl, free, look_put within free⟩
    exact ⟨⟨overwrites.sameDirectories.leads_iff.2 led, wanted, .inl overwrites.look_self⟩,
      .inr overwrites⟩

/-- What is kept at a path can be written over. -/
theorem KeepsAt.write (keeps : KeepsAt files path place octets) (content : Octets) :
    ∃ after, files.write path content = .ok after := by
  by_cases device : files.look place = some .device
  · exact ⟨_, write_eq_ok_iff.2 ⟨place, keeps.leads, keeps.open_ended, .inl ⟨device, rfl⟩⟩⟩
  · have closed := not_opens_of_file (keeps.kept.resolve_right device)
    exact ⟨_, write_eq_ok_iff.2
      ⟨place, keeps.leads, keeps.open_ended, .inr ⟨device, closed, rfl⟩⟩⟩

theorem KeepsAt.of_overwrites (keeps : KeepsAt files path place octets) {other : Place}
    {content : Octets} (overwrites : Overwrites files other content after) (apart : place ≠ other) :
    KeepsAt after path place octets :=
  ⟨overwrites.sameDirectories.leads_iff.2 keeps.leads, keeps.open_ended,
    overwrites.look_of_ne apart ▸ keeps.kept⟩

/-- Where something is kept something is kept after another file was put. -/
theorem KeepsAt.stands (keeps : KeepsAt files path place octets) {other : Place}
    {content : Octets} (overwrites : Overwrites files other content after) :
    ∃ octets, KeepsAt after path place octets := by
  by_cases same : place = other
  · subst same
    exact ⟨content, overwrites.sameDirectories.leads_iff.2 keeps.leads, keeps.open_ended,
      .inl overwrites.look_self⟩
  · exact ⟨octets, keeps.of_overwrites overwrites same⟩

def Meet (files : Files) (path other : String) : Prop :=
  ∃ way way', files.locate path = .ok way ∧ files.locate other = .ok way' ∧ way.place = way'.place

theorem meet_of_leads {other : String} (led : leads files.look files.here path = .ok place)
    (led' : leads files.look files.here other = .ok place) : files.Meet path other :=
  ⟨files.wayTo place, files.wayTo place, by rw [locate_eq, led]; rfl, by rw [locate_eq, led']; rfl,
    rfl⟩

theorem leads_of_meet {other : String} (meet : files.Meet path other) :
    ∃ place, leads files.look files.here path = .ok place ∧
      leads files.look files.here other = .ok place := by
  obtain ⟨way, way', led, led', same⟩ := meet
  rw [locate_eq] at led led'
  cases first : leads files.look files.here path with
  | error error => simp [first, Except.map] at led
  | ok place =>
      cases second : leads files.look files.here other with
      | error error => simp [second, Except.map] at led'
      | ok place' =>
          rw [first] at led
          rw [second] at led'
          cases led
          cases led'
          rw [place_wayTo, place_wayTo] at same
          exact ⟨place, rfl, same ▸ rfl⟩

theorem SameDirectories.meet {other : String} (same : SameDirectories files after)
    (meet : after.Meet path other) : files.Meet path other := by
  obtain ⟨place, led, led'⟩ := leads_of_meet meet
  exact meet_of_leads (same.leads_iff.1 led) (same.leads_iff.1 led')

/-- What can be read from a path was there before, unless the file was put where it leads. -/
theorem Overwrites.read {other : String} {content : Octets}
    (overwrites : Overwrites files place content after)
    (led : leads files.look files.here other = .ok place) (apart : ¬ files.Meet other path)
    (opened : after.read path = .ok octets) : files.read path = .ok octets := by
  obtain ⟨ended, led', wanted, held⟩ := read_eq_ok_iff.1 opened
  have before := overwrites.sameDirectories.leads_iff.1 led'
  have elsewhere : ended ≠ place := fun same => apart (meet_of_leads led (same ▸ before))
  rw [overwrites.look_of_ne elsewhere] at held
  exact read_eq_ok_iff.2 ⟨ended, before, wanted, held⟩

/-- The path leads to a file of the octets, or to a device, which keeps nothing. -/
def Keeps (files : Files) (path : String) (octets : Octets) : Prop :=
  files.find path = .ok (.file octets) ∨ files.find path = .ok .device

theorem KeepsAt.keeps (keeps : KeepsAt files path place octets) : files.Keeps path octets := by
  obtain ⟨led, wanted, kept⟩ := keeps
  rcases kept with here | here
  · exact .inl (find_of_look led wanted here nofun)
  · exact .inr (find_of_look led wanted here nofun)

end Files

end BerRecords

namespace BerRecords.Run

open Files

variable {settings : Settings} {schema : Schema} {files after held : Files} {name input : String}
  {place : Place} {octets : Octets} {outcome : Except InputFailure Summary}

/-! ## Outputs -/

def outputOf (settings : Settings) (name : String) : String :=
  Path.inside settings.outputDir (name ++ ".jsonl")

theorem outputPath?_eq_some_iff {output : String} : outputPath? settings input = some output ↔
    ∃ name, Path.fileName? input = some name ∧ output = outputOf settings name := by
  rw [outputPath?, Option.map_eq_some_iff]
  exact exists_congr fun name => and_congr_right fun _ => eq_comm

theorem plain_of_fileName? (named : Path.fileName? input = some name) :
    Path.Plain (name ++ ".jsonl") := by
  have solid := Path.not_mem_of_fileName? named
  have long : 6 ≤ (name ++ ".jsonl").toList.length := by simp
  refine ⟨fun none => ?_, ?_, fun dot => ?_, fun dots => ?_⟩
  · rw [none] at long
    cases long
  · rw [String.toList_append, List.mem_append, not_or]
    exact ⟨solid, by decide⟩
  · rw [dot] at long
    exact absurd long (by decide)
  · rw [dots] at long
    exact absurd long (by decide)

def linesOf (settings : Settings) (schema : Schema) (octets : Octets) : Octets :=
  (Decoding.ofOctets settings schema octets).content

/-! ## What a turn changes -/

/-- The turn of an input changes nothing, or it puts the lines of the input into its output. -/
theorem Turn.changes (turn : Turn settings schema files input outcome after) :
    after = files ∨ ∃ name octets parent, Path.fileName? input = some name ∧
      files.read input = .ok octets ∧
      base files.look files.here settings.outputDir = .ok parent ∧
      KeepsAt after (outputOf settings name) (parent ++ [name ++ ".jsonl"])
        (linesOf settings schema octets) ∧
      Overwrites files (parent ++ [name ++ ".jsonl"]) (linesOf settings schema octets) after := by
  cases turn with
  | unopened | nameless | uncreated => exact .inl rfl
  | @written octets _ _ opened output written =>
      obtain ⟨name, named, rfl⟩ := outputPath?_eq_some_iff.1 output
      obtain ⟨parent, based, keeps, same | overwrites⟩ :=
        write_inside (plain_of_fileName? named) written
      · exact .inl same
      · exact .inr ⟨name, octets, parent, named, opened, based, keeps, overwrites⟩

theorem Turn.sameDirectories (turn : Turn settings schema files input outcome after) :
    SameDirectories files after := by
  rcases turn.changes with rfl | ⟨name, octets, parent, -, -, -, -, overwrites⟩
  · exact .refl _
  · exact overwrites.sameDirectories

/-- An output is kept during the turn of an input of another name, or one that cannot be opened. -/
theorem Turn.keeps (turn : Turn settings schema files input outcome after)
    (named : Path.Plain (name ++ ".jsonl"))
    (keeps : KeepsAt files (outputOf settings name) place octets)
    (spared : Path.fileName? input = some name → ∀ octets, files.read input ≠ .ok octets) :
    KeepsAt after (outputOf settings name) place octets := by
  rcases turn.changes with rfl | ⟨other, content, parent, same, opened, based, -, overwrites⟩
  · exact keeps
  · obtain ⟨parent', based', -, rfl⟩ := base_of_leads named keeps.leads
    obtain rfl := Except.ok.inj (based.symm.trans based')
    refine keeps.of_overwrites overwrites fun met => ?_
    have suffixed := List.singleton_inj.1 (List.append_cancel_left met)
    obtain rfl := (String.append_left_inj _).1 suffixed
    exact spared same content opened

/-- After the turn of an input that can be opened its output holds its lines. -/
theorem Turn.keeps_own (turn : Turn settings schema files input outcome after)
    (named : Path.fileName? input = some name) (opened : files.read input = .ok octets)
    (created : ∀ output cause, outcome ≠ .error (.uncreated output cause)) :
    ∃ place, KeepsAt after (outputOf settings name) place (linesOf settings schema octets) := by
  cases turn with
  | unopened failed => cases failed.symm.trans opened
  | nameless _ nameless =>
      rw [outputPath?, named] at nameless
      cases nameless
  | uncreated => exact absurd rfl (created _ _)
  | written opened' output written =>
      obtain ⟨name', named', rfl⟩ := outputPath?_eq_some_iff.1 output
      cases named.symm.trans named'
      cases opened.symm.trans opened'
      obtain ⟨parent, -, keeps, -⟩ := write_inside (plain_of_fileName? named) written
      exact ⟨_, keeps⟩

/-- What is kept at an output can be written over, so there is something after every turn. -/
theorem Turn.stands (turn : Turn settings schema files input outcome after)
    (keeps : KeepsAt files (outputOf settings name) place octets) :
    ∃ octets, KeepsAt after (outputOf settings name) place octets := by
  rcases turn.changes with rfl | ⟨other, content, parent, -, -, -, -, overwrites⟩
  · exact ⟨octets, keeps⟩
  · exact keeps.stands overwrites

theorem Turn.created (turn : Turn settings schema files input outcome after)
    (named : Path.fileName? input = some name)
    (keeps : KeepsAt files (outputOf settings name) place octets) (output : String)
    (cause : FileError) : outcome ≠ .error (.uncreated output cause) := by
  intro failed
  cases turn with
  | unopened | nameless => cases failed
  | uncreated _ output refused =>
      obtain ⟨name', named', rfl⟩ := outputPath?_eq_some_iff.1 output
      cases named.symm.trans named'
      obtain ⟨after, written⟩ := keeps.write (linesOf settings schema _)
      cases written.symm.trans refused
  | @written octets =>
      cases ended : (Decoding.ofOctets settings schema octets).ending with
      | error | ok =>
          rw [ended] at failed
          cases failed

/-- What can be read from a path after a turn was there before, unless the output leads there. -/
theorem Turn.read {path : String} (turn : Turn settings schema files input outcome after)
    (apart : ∀ output, outputPath? settings input = some output → ¬ files.Meet output path)
    (opened : after.read path = .ok octets) : files.read path = .ok octets := by
  rcases turn.changes with rfl | ⟨name, content, parent, named, -, -, keeps, overwrites⟩
  · exact opened
  · have led := overwrites.sameDirectories.leads_iff.1 keeps.leads
    exact overwrites.read led (apart _ (outputPath?_eq_some_iff.2 ⟨name, named, rfl⟩)) opened

/-! ## What the turns of many inputs change -/

/-- None of the inputs has the name and can be opened when its turn comes. -/
def Spared (settings : Settings) (schema : Schema) (name : String) (files : Files)
    (inputs : List String) : Prop :=
  ∀ front other back held, inputs = front ++ other :: back →
    Turns settings schema files front held → Path.fileName? other = some name →
      ∀ octets, held.read other ≠ .ok octets

variable {inputs : List String}

theorem Turns.keeps (turns : Turns settings schema files inputs after)
    (plain : Path.Plain (name ++ ".jsonl"))
    (keeps : KeepsAt files (outputOf settings name) place octets)
    (spared : Spared settings schema name files inputs) :
    KeepsAt after (outputOf settings name) place octets := by
  induction turns with
  | nil => exact keeps
  | cons turn _ ih =>
      refine ih (turn.keeps plain keeps (spared [] _ _ _ rfl .nil)) ?_
      rintro front other back held rfl earlier
      exact spared (_ :: front) other back held rfl (.cons turn earlier)

theorem Turns.stands (turns : Turns settings schema files inputs after)
    (keeps : KeepsAt files (outputOf settings name) place octets) :
    ∃ octets, KeepsAt after (outputOf settings name) place octets := by
  induction turns generalizing octets with
  | nil => exact ⟨octets, keeps⟩
  | cons turn _ ih =>
      obtain ⟨content, keeps⟩ := turn.stands keeps
      exact ih keeps

theorem Turns.read {path : String} (turns : Turns settings schema files inputs after)
    (apart : ∀ other ∈ inputs, ∀ output, outputPath? settings other = some output →
      ¬ files.Meet output path)
    (opened : after.read path = .ok octets) : files.read path = .ok octets := by
  induction turns with
  | nil => exact opened
  | cons turn _ ih =>
      rw [List.forall_mem_cons] at apart
      refine turn.read apart.1 (ih (fun other member output named met => ?_) opened)
      exact apart.2 other member output named (turn.sameDirectories.meet met)

/-! ## Runs -/

/-- The workspace when the turn of an input comes, after those of the inputs before it. -/
def atTurn (settings : Settings) (schema : Schema) (start : Workspace) (earlier : List String) :
    Workspace :=
  (play (decodeInputs settings schema ⟨.zero, 0⟩ earlier : ExceptT Failure (StateM Workspace) _)
    start).2

theorem turns_atTurn (settings : Settings) (schema : Schema) (start : Workspace)
    (earlier : List String) :
    Turns settings schema start.files earlier (atTurn settings schema start earlier).files := by
  obtain ⟨total, after, told, turns, ran⟩ :=
    play_decodeInputs (φ := Failure) settings schema ⟨.zero, 0⟩ earlier start
  rw [atTurn, ran]
  exact turns

/-- No input from the place in the list on has the name and can be opened at its turn. -/
def NoneOpened (settings : Settings) (schema : Schema) (start : Workspace) (name : String)
    (earlier later : List String) : Prop :=
  ∀ between other behind, later = between ++ other :: behind → Path.fileName? other = some name →
    ∀ octets, (atTurn settings schema start (earlier ++ between)).files.read other ≠ .ok octets

theorem NoneOpened.spared {start : Workspace} {earlier later : List String}
    (none : NoneOpened settings schema start name earlier later) :
    Spared settings schema name (atTurn settings schema start earlier).files later := by
  intro front other back held split turns named
  have before := turns_atTurn settings schema start earlier
  obtain rfl := (before.append turns).unique (turns_atTurn settings schema start (earlier ++ front))
  exact none front other back split named

/-- What an input puts into its output stays there while none of its name can be opened. -/
theorem Turn.keeps_last {start : Workspace} {earlier later : List String} {ended : Files}
    (turn : Turn settings schema (atTurn settings schema start earlier).files input outcome after)
    (named : Path.fileName? input = some name)
    (opened : (atTurn settings schema start earlier).files.read input = .ok octets)
    (created : ∀ output cause, outcome ≠ .error (.uncreated output cause))
    (turns : Turns settings schema after later ended)
    (none : NoneOpened settings schema start name (earlier ++ [input]) later) :
    ended.Keeps (outputOf settings name) (linesOf settings schema octets) := by
  obtain ⟨place, keeps⟩ := turn.keeps_own named opened created
  have before := (turns_atTurn settings schema start earlier).append (.cons turn .nil)
  obtain rfl := before.unique (turns_atTurn settings schema start (earlier ++ [input]))
  exact (turns.keeps (plain_of_fileName? named) keeps none.spared).keeps

theorem Turn.opened {summary : Summary}
    (turn : Turn settings schema files input (.ok summary) after) :
    ∃ name octets, Path.fileName? input = some name ∧ files.read input = .ok octets := by
  generalize succeeded : Except.ok summary = outcome at turn
  cases turn with
  | unopened | nameless | uncreated => cases succeeded
  | @written octets _ _ opened output =>
      obtain ⟨name, named, -⟩ := outputPath?_eq_some_iff.1 output
      exact ⟨name, octets, named, opened⟩

/-- An input that decodes without failure has its lines in its output at the end, unless inputs of
the same file name follow that can be opened: then the output holds the lines of the last of these.
The lines are those of what the input held at the start, unless the output of an input before it
leads to the place of the input. -/
theorem output_holds_last_opened {arguments : CommandLine.Arguments} {files : Files}
    {found earlier later : List String} {start left : Workspace} {summary : Summary}
    (ready : play (prepare arguments) (.ofFiles files) = (.ok (settings, schema, found), start))
    (split : Path.ordered found = earlier ++ input :: later)
    (decoded : Ends (decodeInput settings schema input : Part Failure _)
      (atTurn settings schema start earlier) (.ok summary) left) :
    ∃ name octets, Path.fileName? input = some name ∧
      (atTurn settings schema start earlier).files.read input = .ok octets ∧
      (NoneOpened settings schema start name (earlier ++ [input]) later →
        (onFiles arguments files).2.files.Keeps (outputOf settings name)
          (linesOf settings schema octets)) ∧
      (∀ between other behind content, later = between ++ other :: behind →
        Path.fileName? other = some name →
        (atTurn settings schema start (earlier ++ input :: between)).files.read other =
          .ok content →
        NoneOpened settings schema start name (earlier ++ input :: between ++ [other]) behind →
        (onFiles arguments files).2.files.Keeps (outputOf settings name)
          (linesOf settings schema content)) ∧
      ((∀ other ∈ earlier, ∀ output, outputPath? settings other = some output →
          ¬ start.files.Meet output input) → start.files.read input = .ok octets) := by
  have before := turns_atTurn settings schema start earlier
  obtain ⟨held, earlierTurns, rest⟩ := (split ▸ turns_onFiles ready).split
  obtain rfl := earlierTurns.unique before
  have turn := Turn.of_ends decoded
  cases rest with
  | cons turn' turns =>
      obtain ⟨rfl, rfl⟩ := turn'.unique turn
      obtain ⟨name, octets, named, opened⟩ := turn.opened
      refine ⟨name, octets, named, opened, turn.keeps_last named opened nofun turns, ?_,
        fun apart => before.read apart opened⟩
      rintro between other behind content rfl named' opened' none
      obtain ⟨place, keeps⟩ := turn.keeps_own named opened nofun
      obtain ⟨mid, betweenTurns, rest⟩ := turns.split
      obtain ⟨_, keeps⟩ := betweenTurns.stands keeps
      obtain rfl := (before.append (.cons turn betweenTurns)).unique
        (turns_atTurn settings schema start (earlier ++ input :: between))
      cases rest with
      | cons turn'' behindTurns =>
          exact turn''.keeps_last named' opened' (turn''.created named' keeps) behindTurns none

theorem output_of_second_input :
    let arguments : CommandLine.Arguments :=
      { CommandLine.Arguments.empty with
        schema := some "s.asn", outputDir := some "out", inputs := ["a/x.ber", "b/x.ber"] }
    let files : Files := ⟨.directory [
      ("s.asn", .file "A ::= INTEGER".toUTF8.toList),
      ("a", .directory [("x.ber", .file [2, 1, 5])]),
      ("b", .directory [("x.ber", .file [2, 1, 6])])], []⟩
    ∃ settings schema start, play (prepare arguments) (.ofFiles files) =
        (.ok (settings, schema, ["a/x.ber", "b/x.ber"]), start) ∧
      Path.ordered ["a/x.ber", "b/x.ber"] = ["a/x.ber", "b/x.ber"] ∧
      (onFiles arguments files).2.files.Keeps (outputOf settings "x.ber")
        (linesOf settings schema [2, 1, 6]) := by
  intro arguments files
  have before : Path.notAfter (Path.steps "a/x.ber") (Path.steps "b/x.ber") = true := by
    decide +kernel
  have ordered : Path.ordered ["a/x.ber", "b/x.ber"] = ["a/x.ber", "b/x.ber"] := by
    rw [Path.ordered, List.map_cons, List.map_cons, List.map_nil,
      List.mergeSort_of_pairwise (by simp [before])]
    decide +kernel
  have checked : ((play (prepare arguments) (.ofFiles files)).1.toOption.any fun ready =>
      let start := (play (prepare (m := StateM Workspace) arguments) (.ofFiles files)).2
      ready.2.2 == ["a/x.ber", "b/x.ber"] &&
        ((atTurn ready.1 ready.2.1 start ["a/x.ber"]).files.read "b/x.ber").toOption ==
          some [2, 1, 6] &&
        (play (decodeInput ready.1 ready.2.1 "a/x.ber" : Part Failure _).run start).1.toOption.any
          (·.isOk)) = true := by
    decide +kernel
  rcases ready : play (prepare arguments) (.ofFiles files) with
    ⟨error | ⟨settings, schema, found⟩, start⟩
  · rw [ready] at checked
    cases checked
  · simp only [ready, Except.toOption, Option.any_some, Bool.and_eq_true, beq_iff_eq] at checked
    obtain ⟨⟨rfl, held⟩, decoded⟩ := checked
    refine ⟨settings, schema, start, rfl, ordered, ?_⟩
    rcases ended : play (decodeInput settings schema "a/x.ber" : Part Failure _).run start with
      ⟨failure | ⟨failure | summary⟩, left⟩
    · rw [ended] at decoded
      cases decoded
    · rw [ended] at decoded
      cases decoded
    · cases opened : (atTurn settings schema start ["a/x.ber"]).files.read "b/x.ber" with
      | error failure =>
          rw [opened] at held
          cases held
      | ok octets =>
          rw [opened] at held
          cases held
          have split : Path.ordered ["a/x.ber", "b/x.ber"] = [] ++ "a/x.ber" :: ["b/x.ber"] :=
            ordered
          obtain ⟨name, octets, named, -, -, replaced, -⟩ :=
            output_holds_last_opened ready split ended
          have first : Path.fileName? "a/x.ber" = some "x.ber" := by decide +kernel
          have second : Path.fileName? "b/x.ber" = some "x.ber" := by decide +kernel
          obtain rfl := Option.some.inj (named.symm.trans first)
          refine replaced [] "b/x.ber" [] [2, 1, 6] rfl second opened ?_
          exact fun between other behind none => absurd none (by simp)

end BerRecords.Run
