import Mathlib
import BrowserActions.Command.Run
import BrowserActions.Proofs.Action.HandOff
import BrowserActions.Proofs.Environment.Loading
import BrowserActions.Proofs.Reply.RoundTrip

/-!
# What a run prints

A run that performs a command prints the whole answer or nothing. What can go wrong is looked at in
this order: setting the variables of the environment file, finding the configuration, understanding
it, reading the input, understanding that.
-/
namespace BrowserActions.Command

variable {s s' : Surroundings} {args : List String} {i : Invocation} {config : Config}
  {file : Option String} {text : String} {e : Failure} {actions : List (Action Operation)}

/-- What stands where the reply is read from. -/
def source (s : Surroundings) : Option String → Except FileError FileContent
  | some path => s.files.locate path
  | none => .ok s.input

theorem readReply_eq (s : Surroundings) (file : Option String) :
    readReply s file = (source s file >>= FileContent.read).mapError Failure.file := by
  cases file <;> rfl

theorem readReply_of_text (h : source s file = .ok (.text text)) : readReply s file = .ok text := by
  rw [readReply_eq, h]
  rfl

theorem readReply_of_other (h : ∀ text, source s file ≠ .ok (.text text)) :
    ∃ reason, readReply s file = .error (.file reason) := by
  rw [readReply_eq]
  cases hsource : source s file with
  | error reason => exact ⟨reason, rfl⟩
  | ok content =>
    cases content with
    | text text => exact absurd hsource (h text)
    | garbled head => exact ⟨.invalidText, rfl⟩
    | directory => exact ⟨.isADirectory, rfl⟩

theorem answer_parse_unread (hrequest : i.request = .parse file)
    (h : readReply s file = .error e) : answer s config i.request = .error e := by
  rw [hrequest, answer, h]
  rfl

theorem answer_parse (hrequest : i.request = .parse file) (hread : readReply s file = .ok text) :
    answer s config i.request =
      (Reply.actions text).map fun actions => (Action.listToJson actions).prettyText ++ "\n" := by
  rw [hrequest, answer, hread]
  change (do
    let actions ← Reply.actions text
    pure ((Action.listToJson actions).prettyText ++ "\n")) = _
  cases Reply.actions text <;> rfl

theorem read_printed (actions : List (Action Operation)) :
    Json.readAs (Action.decodeList Json.deepest)
      ((Action.listToJson actions).prettyText ++ "\n").toList = .ok actions := by
  rw [String.toList_append, Json.prettyText, String.toList_ofList]
  apply Action.read_pretty_list
  intro c hc
  obtain rfl := List.mem_singleton.mp hc
  rfl

theorem run_eq_perform (h : Parsed.ofArgs args = .run i) (happly : EnvFile.apply s = some s') :
    run s args = match perform s' i with
      | .ok text => .printed text
      | .error e => .failed e := by
  cases hperform : perform s' i <;> simp only [run, happly, h, hperform]

theorem perform_of_config (hconfig : loadConfig s i.config = .ok config) :
    perform s i = answer s config i.request := by
  rw [perform, hconfig]
  rfl

theorem run_of_answer (h : Parsed.ofArgs args = .run i) (happly : EnvFile.apply s = some s')
    (hconfig : loadConfig s' i.config = .ok config)
    (hanswer : answer s' config i.request = .ok text) : run s args = .printed text := by
  rw [run_eq_perform h happly, perform_of_config hconfig, hanswer]

theorem run_of_no_answer (h : Parsed.ofArgs args = .run i) (happly : EnvFile.apply s = some s')
    (hconfig : loadConfig s' i.config = .ok config)
    (hanswer : answer s' config i.request = .error e) : run s args = .failed e := by
  rw [run_eq_perform h happly, perform_of_config hconfig, hanswer]

theorem run_of_no_config (h : Parsed.ofArgs args = .run i) (happly : EnvFile.apply s = some s')
    (hconfig : loadConfig s' i.config = .error e) : run s args = .failed e := by
  rw [run_eq_perform h happly, perform, hconfig]
  rfl

theorem loadConfig_input (s : Surroundings) (input : FileContent) (path : Option String) :
    loadConfig { s with input := input } path = loadConfig s path := by
  cases path <;> rfl

theorem run_parse (h : Parsed.ofArgs args = .run i) (happly : EnvFile.apply s = some s')
    (hrequest : i.request = .parse file) (hconfig : loadConfig s' i.config = .ok config)
    (hsource : source s' file = .ok (.text text)) (hactions : Reply.actions text = .ok actions) :
    run s args = .printed ((Action.listToJson actions).prettyText ++ "\n") := by
  apply run_of_answer h happly hconfig
  rw [answer_parse hrequest (readReply_of_text hsource), hactions]
  rfl

theorem run_parse_rejected (h : Parsed.ofArgs args = .run i) (happly : EnvFile.apply s = some s')
    (hrequest : i.request = .parse file) (hconfig : loadConfig s' i.config = .ok config)
    (hsource : source s' file = .ok (.text text)) (hactions : Reply.actions text = .error e) :
    run s args = .failed e := by
  apply run_of_no_answer h happly hconfig
  rw [answer_parse hrequest (readReply_of_text hsource), hactions]
  rfl

theorem run_parse_unread (h : Parsed.ofArgs args = .run i) (happly : EnvFile.apply s = some s')
    (hrequest : i.request = .parse file) (hconfig : loadConfig s' i.config = .ok config)
    (hsource : ∀ text, source s' file ≠ .ok (.text text)) :
    ∃ reason, run s args = .failed (.file reason) := by
  obtain ⟨reason, hread⟩ := readReply_of_other hsource
  exact ⟨reason, run_of_no_answer h happly hconfig (answer_parse_unread hrequest hread)⟩

/-- What a run comes to that performs a command, if the environment file makes `s'` of its
surroundings `s`. -/
structure AllOrNothing (s s' : Surroundings) (args : List String) (i : Invocation) : Prop where
  ended : (∃ config text, loadConfig s' i.config = .ok config ∧
      answer s' config i.request = .ok text ∧ run s args = .printed text) ∨
    ∃ e, run s args = .failed e
  unconfigured : ∀ e, loadConfig s' i.config = .error e →
    ∀ input others request, Parsed.ofArgs others = .run ⟨i.config, request⟩ →
      run { s with input := input } others = .failed e
  parsed : ∀ config file, loadConfig s' i.config = .ok config → i.request = .parse file →
    ∀ text, source s' file = .ok (.text text) →
      ((run s args).code = 0 ↔ ∃ actions, Reply.actions text = .ok actions) ∧
      (∀ actions, Reply.actions text = .ok actions →
        run s args = .printed ((Action.listToJson actions).prettyText ++ "\n") ∧
        Json.readAs (Action.decodeList Json.deepest)
          ((Action.listToJson actions).prettyText ++ "\n").toList = .ok actions) ∧
      ∀ e, Reply.actions text = .error e → run s args = .failed e
  unread : ∀ config file, loadConfig s' i.config = .ok config → i.request = .parse file →
    (∀ text, source s' file ≠ .ok (.text text)) → ∃ reason, run s args = .failed (.file reason)

theorem allOrNothing (h : Parsed.ofArgs args = .run i) (happly : EnvFile.apply s = some s') :
    AllOrNothing s s' args i where
  ended := by
    cases hconfig : loadConfig s' i.config with
    | error e => exact .inr ⟨e, run_of_no_config h happly hconfig⟩
    | ok config =>
      cases hanswer : answer s' config i.request with
      | error e => exact .inr ⟨e, run_of_no_answer h happly hconfig hanswer⟩
      | ok text => exact .inl ⟨config, text, rfl, hanswer, run_of_answer h happly hconfig hanswer⟩
  unconfigured := by
    intro e hconfig input others request hothers
    apply run_of_no_config hothers (EnvFile.apply_input happly input)
    rw [loadConfig_input]
    exact hconfig
  parsed := by
    intro config file hconfig hrequest text hsource
    have hprinted {actions} (hactions : Reply.actions text = .ok actions) :=
      run_parse h happly hrequest hconfig hsource hactions
    have hfailed {e} (hactions : Reply.actions text = .error e) :=
      run_parse_rejected h happly hrequest hconfig hsource hactions
    refine ⟨⟨?_, ?_⟩, fun actions hactions => ⟨hprinted hactions, read_printed actions⟩,
      fun e => hfailed⟩
    · intro hcode
      cases hactions : Reply.actions text with
      | error e =>
        rw [hfailed hactions] at hcode
        cases hcode
      | ok actions => exact ⟨actions, rfl⟩
    · rintro ⟨actions, hactions⟩
      rw [hprinted hactions]
      rfl
  unread _ _ hconfig hrequest hsource := run_parse_unread h happly hrequest hconfig hsource

/-- A run that performs a command prints its whole answer, or nothing and the reason, unless the
environment file ends it first. That file can only do so by a NUL. -/
theorem run_prints_all_or_nothing (s : Surroundings) (args : List String) (i : Invocation)
    (h : Parsed.ofArgs args = .run i) :
    (EnvFile.Unspoilt s → ∃ s', EnvFile.apply s = some s') ∧
    (∀ s', EnvFile.apply s = some s' → AllOrNothing s s' args i) ∧
    (EnvFile.apply s = none → run s args = .crashed) := by
  refine ⟨EnvFile.apply_of_unspoilt, fun s' => allOrNothing h, fun hnone => ?_⟩
  rw [run, hnone]

def desk : Surroundings where
  bindings := []
  files := ⟨[(["work", "reply.txt"], .garbled "")], ["work"]⟩
  programDirectory := none
  settingsDirectory := none
  input := .text (String.ofList (Reply.written [⟨none, .back⟩]))

theorem run_prints_all_or_nothing_desk :
    run desk ["parse"] = .printed ((Action.listToJson [⟨none, .back⟩]).prettyText ++ "\n") ∧
    (∃ reason, run desk ["parse", "reply.txt"] = .failed (.file reason)) ∧
    run { desk with input := .directory } ["--config=none.toml", "css", "//a"] =
      .failed (.config (.unreadable "none.toml" .notFound)) := by
  have happly : EnvFile.apply desk = some desk := by decide +kernel
  have hpath : Config.path? desk = none := by decide +kernel
  have hstandard : loadConfig desk none = .ok Config.standard := by
    rw [loadConfig, Config.load, hpath]
  have hmissing : desk.files.read "none.toml" = .error .notFound := by decide +kernel
  have hunreadable : loadConfig desk (some "none.toml") =
      .error (.config (.unreadable "none.toml" .notFound)) := by
    rw [loadConfig, Config.loadFrom, hmissing]
  have hgarbled : desk.files.locate "reply.txt" = .ok (.garbled "") := by decide +kernel
  refine ⟨?_, ?_, ?_⟩
  · have hargs : Parsed.ofArgs ["parse"] = .run ⟨none, .parse none⟩ := by decide +kernel
    obtain ⟨-, hrun, -⟩ := run_prints_all_or_nothing desk _ _ hargs
    obtain ⟨-, hparse, -⟩ := (hrun desk happly).parsed _ none hstandard rfl _ rfl
    exact (hparse _ (Reply.actions_written _)).1
  · have hargs : Parsed.ofArgs ["parse", "reply.txt"] = .run ⟨none, .parse (some "reply.txt")⟩ := by
      decide +kernel
    obtain ⟨-, hrun, -⟩ := run_prints_all_or_nothing desk _ _ hargs
    apply (hrun desk happly).unread _ _ hstandard rfl
    intro text hsource
    rw [source, hgarbled] at hsource
    cases hsource
  · have hargs : Parsed.ofArgs ["config", "--config", "none.toml"] =
        .run ⟨some "none.toml", .config⟩ := by decide +kernel
    have hothers : Parsed.ofArgs ["--config=none.toml", "css", "//a"] =
        .run ⟨some "none.toml", .css "//a" none⟩ := by decide +kernel
    obtain ⟨-, hrun, -⟩ := run_prints_all_or_nothing desk _ _ hargs
    exact (hrun desk happly).unconfigured _ hunreadable .directory _ _ hothers

def withEnvFile (text : String) : Surroundings where
  bindings := []
  files := ⟨[(["work", ".env"], .text text)], ["work"]⟩
  programDirectory := none
  settingsDirectory := none
  input := .text "[]"

/-- An environment file that cannot be read is passed over in silence, and one that sets a variable
to a NUL is not, although there is a configuration and the reply is understood. -/
theorem nul_ends_run :
    run (withEnvFile "A x\x00y") ["parse"] = .printed "[]\n" ∧
    loadConfig (withEnvFile "A=x\x00y") none = .ok Config.standard ∧
    source (withEnvFile "A=x\x00y") none = .ok (.text "[]") ∧ Reply.actions "[]" = .ok [] ∧
    run (withEnvFile "A=x\x00y") ["parse"] = .crashed ∧ Outcome.crashed.code = 101 := by
  have hargs : Parsed.ofArgs ["parse"] = .run ⟨none, .parse none⟩ := by decide +kernel
  have hunread : EnvFile.apply (withEnvFile "A x\x00y") = some (withEnvFile "A x\x00y") := by
    decide +kernel
  have hspoilt : EnvFile.apply (withEnvFile "A=x\x00y") = none := by decide +kernel
  have hstandard (text : String) (h : Config.path? (withEnvFile text) = none) :
      loadConfig (withEnvFile text) none = .ok Config.standard := by
    rw [loadConfig, Config.load, h]
  have hactions : Reply.actions "[]" = .ok [] := by cbv
  have hprinted :
      (Action.listToJson ([] : List (Action Operation))).prettyText ++ "\n" = "[]\n" := by
    decide +kernel
  refine ⟨?_, hstandard _ (by decide +kernel), rfl, hactions, ?_, rfl⟩
  · rw [← hprinted]
    exact run_parse hargs hunread rfl (hstandard _ (by decide +kernel)) rfl hactions
  · rw [run, hspoilt]

end BrowserActions.Command
