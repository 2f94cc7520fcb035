import BerRecords.Proofs.Files.Named
import BerRecords.Run

/-!
# Turns

What the files are like after each input had its turn. An input whose file can be opened puts its
lines into its output, over what was there; nothing else that a run does then changes a file.
-/

set_option autoImplicit false

namespace BerRecords.Run

variable {φ α β : Type} {settings : Settings} {schema : Schema} {workspace : Workspace}

/-! ## Runs in memory -/

/-- What a run gives in a workspace, and the workspace that it leaves. -/
def play (run : ExceptT φ (StateM Workspace) α) (workspace : Workspace) :
    Except φ α × Workspace :=
  run.run.run workspace

theorem play_bind (first : ExceptT φ (StateM Workspace) α)
    (next : α → ExceptT φ (StateM Workspace) β) (workspace : Workspace) :
    play (first >>= next) workspace =
      match play first workspace with
      | (.ok value, after) => play (next value) after
      | (.error error, after) => (.error error, after) := by
  change (match play first workspace with
    | (value, after) => (match value with
      | .ok value => (next value).run
      | .error error => pure (.error error) : StateM Workspace _).run after) = _
  rcases play first workspace with ⟨_ | value, after⟩
  · rfl
  · rfl

abbrev Part (φ α : Type) :=
  ExceptT InputFailure (ExceptT φ (StateM Workspace)) α

/-- The part has the outcome and leaves the workspace; it does not make the run fail. -/
def Ends (part : Part φ α) (workspace : Workspace) (outcome : Except InputFailure α)
    (after : Workspace) : Prop :=
  play part.run workspace = (.ok outcome, after)

namespace Ends

theorem bind {first : Part φ α} {next : α → Part φ β} {value : α}
    {outcome : Except InputFailure β} {between after : Workspace}
    (begins : Ends first workspace (.ok value) between)
    (goes : Ends (next value) between outcome after) :
    Ends (first >>= next) workspace outcome after := by
  change play (first.run >>= _) workspace = _
  rw [play_bind, begins]
  exact goes

theorem fail {first : Part φ α} (next : α → Part φ β) {failure : InputFailure} {after : Workspace}
    (begins : Ends first workspace (.error failure) after) :
    Ends (first >>= next) workspace (.error failure) after := by
  change play (first.run >>= _) workspace = _
  rw [play_bind, begins]
  rfl

theorem unique {part : Part φ α} {outcome outcome' : Except InputFailure α}
    {after after' : Workspace} (ends : Ends part workspace outcome after)
    (ends' : Ends part workspace outcome' after') : outcome = outcome' ∧ after = after' := by
  obtain ⟨same, rest⟩ := Prod.mk.inj (ends.symm.trans ends')
  exact ⟨Except.ok.inj same, rest⟩

theorem orFail {ε : Type} (failure : ε → InputFailure) (result : Except ε α)
    (workspace : Workspace) :
    Ends (Run.orFail failure result : Part φ α) workspace (result.mapError failure) workspace :=
  rfl

theorem read (path : String) (workspace : Workspace) :
    Ends (Host.read path : Part φ _) workspace (.ok (workspace.files.read path)) workspace :=
  rfl

theorem returned (value : α) (workspace : Workspace) :
    Ends (pure value : Part φ α) workspace (.ok value) workspace :=
  rfl

theorem tell (notice : Notice) (workspace : Workspace) :
    Ends (Host.tell notice : Part φ Unit) workspace (.ok ())
      ⟨workspace.files, workspace.notices.push notice⟩ :=
  rfl

theorem write_ok {path : String} {octets : Octets} {files : Files}
    (written : workspace.files.write path octets = .ok files) :
    Ends (Host.write path octets : Part φ _) workspace (.ok (.ok ()))
      ⟨files, workspace.notices⟩ := by
  change (let changed := Workspace.change (Files.write path octets) workspace
    (Except.ok (Except.ok changed.1), changed.2)) = _
  rw [Workspace.change, written]

theorem write_error {path : String} {octets : Octets} {error : FileError}
    (refused : workspace.files.write path octets = .error error) :
    Ends (Host.write path octets : Part φ _) workspace (.ok (.error error)) workspace := by
  change (let changed := Workspace.change (Files.write path octets) workspace
    (Except.ok (Except.ok changed.1), changed.2)) = _
  rw [Workspace.change, refused]

/-- Telling changes no file. -/
theorem tell_each (inputs : List α) (notice : α → Notice) (workspace : Workspace) :
    ∃ told, Ends (forIn inputs PUnit.unit fun each _ => do
      Host.tell (notice each)
      pure (.yield PUnit.unit) : Part φ PUnit) workspace
        (.ok PUnit.unit) ⟨workspace.files, told⟩ := by
  induction inputs generalizing workspace with
  | nil => exact ⟨workspace.notices, rfl⟩
  | cons first rest ih =>
      obtain ⟨told, rested⟩ := ih ⟨workspace.files, workspace.notices.push (notice first)⟩
      refine ⟨told, ?_⟩
      rw [List.forIn_cons]
      exact .bind (.bind (.tell (notice first) workspace) (.returned _ _)) rested

end Ends

/-! ## The turn of an input -/

/-- What the turn of an input comes to, and the files that it leaves. -/
inductive Turn (settings : Settings) (schema : Schema) (files : Files) (input : String) :
    Except InputFailure Summary → Files → Prop where
  | unopened {cause : FileError} : files.read input = .error cause →
      Turn settings schema files input (.error (.unopened input cause)) files
  | nameless {octets : Octets} : files.read input = .ok octets →
      outputPath? settings input = none →
      Turn settings schema files input (.error (.nameless input)) files
  | uncreated {octets : Octets} {output : String} {cause : FileError} :
      files.read input = .ok octets → outputPath? settings input = some output →
      files.write output (Decoding.ofOctets settings schema octets).content = .error cause →
      Turn settings schema files input (.error (.uncreated output cause)) files
  | written {octets : Octets} {output : String} {after : Files} :
      files.read input = .ok octets → outputPath? settings input = some output →
      files.write output (Decoding.ofOctets settings schema octets).content = .ok after →
      Turn settings schema files input
        ((Decoding.ofOctets settings schema octets).ending.mapError .undecoded) after

theorem exists_turn (settings : Settings) (schema : Schema) (files : Files) (input : String) :
    ∃ outcome after, Turn settings schema files input outcome after := by
  cases opened : files.read input with
  | error cause => exact ⟨_, _, .unopened opened⟩
  | ok octets =>
      cases named : outputPath? settings input with
      | none => exact ⟨_, _, .nameless opened named⟩
      | some output =>
          cases written : files.write output (Decoding.ofOctets settings schema octets).content with
          | error cause => exact ⟨_, _, .uncreated opened named written⟩
          | ok after => exact ⟨_, _, .written opened named written⟩

variable {input : String} {outcome outcome' : Except InputFailure Summary}
  {files after after' : Files}

/-- Decoding an input is its turn. -/
theorem Turn.ends (turn : Turn settings schema files input outcome after) (notices : Array Notice) :
    ∃ told, Ends (decodeInput settings schema input : Part φ _) ⟨files, notices⟩ outcome
      ⟨after, told⟩ := by
  have opening := Ends.read (φ := φ) input ⟨files, notices⟩
  rw [decodeInput]
  dsimp only at opening
  cases turn with
  | unopened failed =>
      rw [failed] at opening
      exact ⟨notices, .bind opening (.fail _ (.orFail _ _ _))⟩
  | nameless opened named =>
      rw [opened] at opening
      refine ⟨notices, .bind opening (.bind (.orFail _ _ _) ?_)⟩
      rw [named]
      rfl
  | uncreated opened named refused =>
      rw [opened] at opening
      refine ⟨notices, .bind opening (.bind (.orFail _ _ _) ?_)⟩
      rw [named]
      exact .bind (.write_error refused) (.fail _ (.orFail _ _ _))
  | @written octets output _ opened named written =>
      rw [opened] at opening
      obtain ⟨told, each⟩ := Ends.tell_each (Decoding.ofOctets settings schema octets).dropped
        (.dropped input) ⟨after, notices⟩
      refine ⟨told, .bind opening (.bind (.orFail _ _ _) ?_)⟩
      rw [named]
      exact .bind (.write_ok written) (.bind (.orFail _ _ _) (.bind each (.orFail _ _ _)))

theorem Turn.unique (turn : Turn settings schema files input outcome after)
    (turn' : Turn settings schema files input outcome' after') :
    outcome = outcome' ∧ after = after' := by
  obtain ⟨told, ends⟩ := turn.ends (φ := Failure) #[]
  obtain ⟨told', ends'⟩ := turn'.ends (φ := Failure) #[]
  obtain ⟨same, left⟩ := ends.unique ends'
  exact ⟨same, congrArg Workspace.files left⟩

theorem Turn.of_ends {left : Workspace}
    (ends : Ends (decodeInput settings schema input : Part φ _) workspace outcome left) :
    Turn settings schema workspace.files input outcome left.files := by
  obtain ⟨outcome', after, turn⟩ := exists_turn settings schema workspace.files input
  obtain ⟨told, ends'⟩ := turn.ends (φ := φ) workspace.notices
  obtain ⟨rfl, rfl⟩ := ends.unique ends'
  exact turn

inductive Turns (settings : Settings) (schema : Schema) : Files → List String → Files → Prop where
  | nil {files : Files} : Turns settings schema files [] files
  | cons {files between after : Files} {input : String} {rest : List String}
      {outcome : Except InputFailure Summary} : Turn settings schema files input outcome between →
      Turns settings schema between rest after → Turns settings schema files (input :: rest) after

theorem Turns.split {inputs others : List String}
    (turns : Turns settings schema files (inputs ++ others) after) :
    ∃ between, Turns settings schema files inputs between ∧
      Turns settings schema between others after := by
  induction inputs generalizing files with
  | nil => exact ⟨files, .nil, turns⟩
  | cons input rest ih =>
      cases turns with
      | cons turn later =>
          obtain ⟨between, earlier, later⟩ := ih later
          exact ⟨between, .cons turn earlier, later⟩

theorem Turns.append {between : Files} {inputs others : List String}
    (turns : Turns settings schema files inputs between)
    (later : Turns settings schema between others after) :
    Turns settings schema files (inputs ++ others) after := by
  induction turns with
  | nil => exact later
  | cons turn _ ih => exact .cons turn (ih later)

theorem Turns.unique {inputs : List String} (turns : Turns settings schema files inputs after)
    (turns' : Turns settings schema files inputs after') : after = after' := by
  induction turns with
  | nil =>
      cases turns'
      rfl
  | cons turn _ ih =>
      cases turns' with
      | cons turn' later =>
          obtain ⟨-, rfl⟩ := turn.unique turn'
          exact ih later

theorem play_decodeInputs (settings : Settings) (schema : Schema) (tally : Tally)
    (inputs : List String) (workspace : Workspace) :
    ∃ total after told, Turns settings schema workspace.files inputs after ∧
      play (decodeInputs settings schema tally inputs : ExceptT φ (StateM Workspace) Tally)
        workspace = (.ok total, ⟨after, told⟩) := by
  induction inputs generalizing tally workspace with
  | nil => exact ⟨tally, workspace.files, workspace.notices, .nil, rfl⟩
  | cons input rest ih =>
      obtain ⟨outcome, between, turn⟩ := exists_turn settings schema workspace.files input
      obtain ⟨told, ends⟩ := turn.ends (φ := φ) workspace.notices
      rw [decodeInputs, play_bind, ends]
      cases outcome with
      | ok summary =>
          obtain ⟨total, after, told', turns, ran⟩ :=
            ih { tally with summary := tally.summary.add summary }
              ⟨between, told.push (.decoded input summary)⟩
          exact ⟨total, after, told', .cons turn turns, ran⟩
      | error failure =>
          obtain ⟨total, after, told', turns, ran⟩ := ih { tally with failed := tally.failed + 1 }
            ⟨between, told.push (.failed input failure)⟩
          exact ⟨total, after, told', .cons turn turns, ran⟩

/-! ## The whole run -/

section

variable {m : Type → Type} [Monad m] [Host m]

/-- What a run does before the first input has its turn: it reads its settings and its schema, makes
the directory of the outputs and finds the inputs. -/
def prepare (arguments : CommandLine.Arguments) :
    ExceptT Failure m (Settings × Schema × List String) := do
  let config ← readConfig arguments.config
  let settings ← orFail .lacking (Settings.ofArguments arguments config)
  Host.tell (.readingSchema settings.schema)
  let schema ← readSchema settings
  Host.tell (.schemaReady schema.types.length schema.roots.length settings.decode.errorMode)
  orFail (.noDirectory settings.outputDir) (← Host.makeDirectory settings.outputDir)
  return (settings, schema, ← findFiles settings.extensions arguments.inputs)

def decodeFound (settings : Settings) (schema : Schema) (found : List String) :
    ExceptT Failure m Unit := do
  if found.isEmpty then
    Host.tell .noInputs
  else
    Host.tell (.inputsFound found.length)
    let tally ← decodeInputs settings schema ⟨.zero, 0⟩ found
    Host.tell (.total tally.summary found.length)
    if tally.failed ≠ 0 then throw (.inputsFailed tally.failed found.length)

theorem ofArguments_eq [LawfulMonad m] (arguments : CommandLine.Arguments) :
    (ofArguments arguments : ExceptT Failure m Unit) =
      prepare arguments >>= fun (settings, schema, found) =>
        decodeFound settings schema (Path.ordered found) := by
  simp only [ofArguments, decodeAll, prepare, decodeFound, bind_assoc, pure_bind]

end

/-- The files after a run are those after the turns of all the inputs that it found, in order. -/
theorem turns_onFiles {arguments : CommandLine.Arguments} {files : Files} {found : List String}
    {start : Workspace}
    (ready : play (prepare arguments) (.ofFiles files) = (.ok (settings, schema, found), start)) :
    Turns settings schema start.files (Path.ordered found) (onFiles arguments files).2.files := by
  change Turns settings schema start.files (Path.ordered found)
    (play (ofArguments (m := StateM Workspace) arguments) (.ofFiles files)).2.files
  rw [ofArguments_eq, play_bind, ready]
  dsimp only
  cases Path.ordered found with
  | nil => exact .nil
  | cons input rest =>
      obtain ⟨total, after, told, turns, ran⟩ := play_decodeInputs (φ := Failure) settings schema
        ⟨.zero, 0⟩ (input :: rest)
        ⟨start.files, start.notices.push (.inputsFound (input :: rest).length)⟩
      have left : (play (decodeFound settings schema (input :: rest)) start).2.files = after := by
        rw [decodeFound, if_neg (by simp), play_bind]
        change (play (decodeInputs settings schema ⟨.zero, 0⟩ (input :: rest) >>= _)
          ⟨start.files, start.notices.push _⟩).2.files = after
        rw [play_bind, ran]
        dsimp only
        split <;> rfl
      exact left.symm ▸ turns

end BerRecords.Run
