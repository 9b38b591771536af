import NodeGraph.Command.Run
import NodeGraph.Proofs.Extents

/-!
# How runs end

A run reads a document, makes the text of a stage and delivers it, and stops at the first of these
that fails. `Settings.Ends` lists the ways in which it can end, each with its report and the state
of the files that is left; a run ends in one of them (`Settings.run_ends`) and in no other
(`Settings.Ends.unique`). What holds of every run is then seen by going through the list.

What a stage makes, and which stages can find a fault at all, is said by `Stage.Makes` and
`Stage.Fails`. The listing and the provenance are made of every graph, the drawing of every graph
with an index, the source of every graph that compiles.

A run is the same on all files, whatever the operations on them are. It is judged here on files that
have a state (`Storage`), of which one thing is asked: a write stores the whole text, or it fails
and changes nothing. Reading can give anything. So `run_outcome` speaks of all paths and of
everything that a file can hold, and of a system that refuses to read or to write what it likes.
-/

namespace NodeGraph.Command

open Document (bind_eq_ok)

/-! ### What every argument keeps -/

/-- A property of what was given that no argument takes away. -/
structure Kept (P : Given → Prop) : Prop where
  take : ∀ {given given' : Given} {setting : Setting} {value : String},
    given.take setting value = .ok given' → P given → P given'
  raise : ∀ {given given' : Given} {flag : Flag}, given.raise flag = .ok given' → P given → P given'
  path : ∀ {given : Given} (path : String), P given → P { given with graph := some path }

namespace Kept

variable {P : Given → Prop} {given given' : Given} {pending : Option (Setting × String)}

theorem settle (h : Kept P) (settled : given.settle pending = .ok given') (held : P given) :
    P given' := by
  cases pending with
  | none =>
    cases settled
    exact held
  | some option => exact h.take settled held

theorem takePath (h : Kept P) {path : String} (taken : given.takePath pending path = .ok given')
    (held : P given) : P given' := by
  unfold Given.takePath at taken
  split at taken
  · cases taken
  · obtain ⟨between, settled, taken⟩ := bind_eq_ok.mp taken
    split at taken
    · cases taken
    · cases taken
      exact h.path path (h.settle settled held)

theorem readPaths (h : Kept P) {paths : List String}
    (read : readPaths paths pending given = .ok given') (held : P given) : P given' := by
  induction paths generalizing pending given with
  | nil => exact h.settle read held
  | cons path rest ih =>
    obtain ⟨between, taken, read⟩ := bind_eq_ok.mp read
    exact ih read (h.takePath taken held)

/-- What no argument takes away holds after all of them. -/
theorem readArguments (h : Kept P) {arguments : List String}
    (read : readArguments arguments pending given = .ok given') (held : P given) : P given' := by
  fun_induction Command.readArguments arguments pending given with
  | case1 => exact h.settle read held
  | case2 => exact h.readPaths read held
  | case3 text rest pending given _ ih =>
    obtain ⟨between, taken, read⟩ := bind_eq_ok.mp read
    exact ih between read (h.takePath taken held)
  | case5 text rest pending given setting value _ _ _ ih =>
    obtain ⟨settledGiven, settled, read⟩ := bind_eq_ok.mp read
    obtain ⟨between, taken, read⟩ := bind_eq_ok.mp read
    exact ih between read (h.take taken (h.settle settled held))
  | case6 text rest pending given setting _ _ _ ih =>
    obtain ⟨between, settled, read⟩ := bind_eq_ok.mp read
    -- the value is the next argument; it is taken only when the one behind it was recognised
    cases rest with
    | nil => cases read
    | cons value rest =>
      dsimp only at read
      split at read
      · exact ih between read (h.settle settled held)
      · cases read
  | case8 text rest pending given flag _ _ _ ih =>
    obtain ⟨settledGiven, settled, read⟩ := bind_eq_ok.mp read
    obtain ⟨between, raised, read⟩ := bind_eq_ok.mp read
    exact ih between read (h.raise raised (h.settle settled held))
  | case9 =>
    obtain ⟨_, _, stopped⟩ := bind_eq_ok.mp read
    cases stopped
  | case4 | case7 => cases read

end Kept

/-! ### What is asked for -/

theorem once_eq_ok {α : Type} {argument : String} {old set : Option α} {new : α}
    (h : once argument old new = .ok set) : set = some new := by
  unfold once at h
  split at h <;> cases h
  rfl

theorem valid_eq_ok {α : Type} {setting : Setting} {value : String} {found : Option α} {a : α}
    (h : valid setting value found = .ok a) : found = some a := by
  unfold valid at h
  split at h <;> cases h
  rfl

namespace Given

variable {given given' : Given}

/-- The preset, if any, is the only one there is. -/
def KnownPreset (given : Given) : Prop := ∀ signature ∈ given.preset, signature = .kinematics

theorem knownPreset_take {setting : Setting} {value : String}
    (taken : given.take setting value = .ok given') (known : given.KnownPreset) :
    given'.KnownPreset := by
  cases setting with
  | preset =>
    obtain ⟨signature, named, taken⟩ := bind_eq_ok.mp taken
    obtain ⟨preset, set, ⟨⟩⟩ := bind_eq_ok.mp taken
    have found := valid_eq_ok named
    unfold preset? at found
    split at found <;> cases found
    simp [KnownPreset, once_eq_ok set]
  | output | emit =>
    obtain ⟨_, _, taken⟩ := bind_eq_ok.mp taken
    obtain ⟨_, _, ⟨⟩⟩ := bind_eq_ok.mp taken
    exact known
  | name | returnType =>
    obtain ⟨_, _, ⟨⟩⟩ := bind_eq_ok.mp taken
    exact known
  | param =>
    unfold take at taken
    dsimp only at taken
    split at taken <;> cases taken
    exact known

theorem knownPreset_raise {flag : Flag} (raised : given.raise flag = .ok given')
    (known : given.KnownPreset) : given'.KnownPreset := by
  cases flag <;>
  · unfold raise at raised
    dsimp only at raised
    split at raised <;> cases raised
    exact known

theorem knownPreset_of_read {arguments : List String}
    (read : readArguments arguments none {} = .ok given) : given.KnownPreset :=
  Kept.readArguments ⟨knownPreset_take, knownPreset_raise, fun _ known => known⟩ read
    fun _ none => nomatch none

/-- The options that are asked for. A preset stands for a name and parameters; what is not given is
`evaluateGraph`, no parameter and `int`. -/
def options (given : Given) : Options :=
  let signature : Signature :=
    match given.preset with
    | some _ => .kinematics
    | none => .plain (given.name.getD "evaluateGraph") given.params
  { signature := { signature with returnType := given.returnType.getD "int" }
    mode := if given.allOutputs then .all else .first
    header := !given.noHeader }

theorem settings_eq_ok {s : Settings} (known : given.KnownPreset)
    (asked : given.settings = .ok s) :
    given.graph = some s.graph ∧ s.output = given.output ∧ s.stage = given.stage.getD .source ∧
      s.options = given.options := by
  unfold settings at asked
  split at asked
  · cases asked
  · split at asked
    · cases asked
    · rename_i path named
      cases asked
      refine ⟨named, rfl, rfl, ?_⟩
      unfold options
      cases preset : given.preset with
      | none => rfl
      | some signature =>
        cases known signature preset
        rfl

end Given

/-! ### Stages -/

namespace Stage

/-- A stage makes a text of a graph, with stand-in values at some nodes. -/
inductive Makes (options : Options) (g : Graph) : Stage → String → List Placeholder → Prop
  | listing : Makes options g .graph g.listing []
  | provenance : Makes options g .buildInfo g.provenance []
  | drawing {text : String} (drawn : g.draw = .ok text) : Makes options g .dot text []
  | source {p : Compiled} (compiled : g.compile = .ok p) :
    Makes options g .source (p.source options) p.placeholders

/-- A stage finds a fault in a graph. Only drawing and compiling look for one. -/
inductive Fails (g : Graph) : Stage → Fault → Prop
  | drawing {fault : Fault} (found : g.draw = .error fault) : Fails g .dot fault
  | source {fault : Fault} (found : g.compile = .error fault) : Fails g .source fault

theorem makes_or_fails (stage : Stage) (options : Options) (g : Graph) :
    (∃ text placeholders, stage.Makes options g text placeholders) ∨
      ∃ fault, stage.Fails g fault := by
  cases stage with
  | graph => exact .inl ⟨_, _, .listing⟩
  | buildInfo => exact .inl ⟨_, _, .provenance⟩
  | dot =>
    cases drawn : g.draw with
    | ok text => exact .inl ⟨_, _, .drawing drawn⟩
    | error fault => exact .inr ⟨_, .drawing drawn⟩
  | source =>
    cases compiled : g.compile with
    | ok p => exact .inl ⟨_, _, .source compiled⟩
    | error fault => exact .inr ⟨_, .source compiled⟩

end Stage

/-- A line for each stand-in value. -/
def warnings (placeholders : List Placeholder) : String :=
  String.join <| placeholders.map fun p =>
    "ngc: warning[W0301]: unhandled " ++ p.detail ++ " (" ++ p.node.text ++ ")\n"

theorem warnings_eq (placeholders : List Placeholder) :
    String.join (placeholders.map warningText) = warnings placeholders := by
  have line (p : Placeholder) : warningText p =
      "ngc: warning[W0301]: unhandled " ++ p.detail ++ " (" ++ p.node.text ++ ")\n" := by
    -- the diagnostic has neither causes nor a hint
    have text : ((Diagnostic.warning .unhandled ("unhandled " ++ p.detail)).about p.node).text =
        "warning[W0301]: " ++ ("unhandled " ++ p.detail) ++ "" ++ "" := rfl
    simp only [warningText, text, String.append_empty, ← String.append_assoc]
    rfl
  rw [warnings, funext line]

namespace Settings

variable {s : Settings} {g : Graph}

theorem render_of_makes {text : String} {placeholders : List Placeholder}
    (made : s.stage.Makes s.options g text placeholders) :
    s.render g = .ok ⟨text, warnings placeholders⟩ := by
  rw [← warnings_eq]
  unfold render
  generalize s.stage = stage at made
  cases made with
  | listing | provenance => rfl
  | drawing drawn => simp [drawn, Except.map]
  | source compiled => simp [compiled, Except.map]

theorem render_of_fails {fault : Fault} (failed : s.stage.Fails g fault) :
    s.render g = .error fault := by
  unfold render
  generalize s.stage = stage at failed
  cases failed with
  | drawing found => simp [found, Except.map]
  | source found => simp [found, Except.map]

end Settings

/-! ### Files with a state -/

/-- A way of keeping files, over the states that these can be in. -/
structure Storage (σ : Type) where
  /-- What reading the file at a path gives. -/
  read : σ → String → Except FileFault String
  /-- The state that writing a text to the file at a path leaves, unless it fails. -/
  write : σ → String → String → Except FileFault σ
  /-- What the file at a path holds, if there is one. -/
  held : σ → String → Option ByteArray
  /-- A text that was written is stored as a whole. -/
  held_of_write : ∀ {before after : σ} {path text : String},
    write before path text = .ok after → held after path = some text.toUTF8

namespace Storage

variable {σ : Type}

/-- The operations on files that are kept so. Reading, and a write that fails, change nothing. -/
def files (storage : Storage σ) : Files (StateM σ) where
  read path := return storage.read (← get) path
  write path text := do
    match storage.write (← get) path text with
    | .ok after =>
      set after
      return none
    | .error fault => return some fault

theorem write_files (storage : Storage σ) (before : σ) (path text : String) :
    Id.run ((storage.files.write path text).run before) =
      match storage.write before path text with
      | .ok after => (none, after)
      | .error fault => (some fault, before) := by
  simp only [files, StateT.run_bind, StateT.run_get, pure_bind]
  cases storage.write before path text with
  | ok after => rfl
  | error fault => rfl

/-- What comes of the command: its report, and the state that it leaves. -/
def outcome (storage : Storage σ) (arguments : List String) (before : σ) : Report × σ :=
  Id.run ((Command.run storage.files arguments).run before)

/-- The file at a path is read and is the document of a graph. -/
def Loads (storage : Storage σ) (state : σ) (path : String) (g : Graph) : Prop :=
  ∃ document, storage.read state path = .ok document ∧ Document.load document = .ok g

end Storage

/-! ### Ends of runs -/

namespace Settings

variable {σ : Type}

/-- What comes of some settings is what comes of their plan, which is made of what reading gives. -/
theorem run_files (s : Settings) (storage : Storage σ) (before : σ) :
    Id.run ((s.run storage.files).run before) =
      match s.plan (storage.read before s.graph) with
      | .finish report => (report, before)
      | .save path text stderr =>
        match storage.write before path text with
        | .ok after => (.ofSave path stderr none, after)
        | .error fault => (.ofSave path stderr (some fault), before) := by
  have read : Id.run ((s.run storage.files).run before) =
      Id.run (((s.plan (storage.read before s.graph)).carryOut storage.files).run before) := rfl
  rw [read]
  cases s.plan (storage.read before s.graph) with
  | finish report => rfl
  | save path text stderr =>
    have save : Id.run (((Plan.save path text stderr).carryOut storage.files).run before) =
        (Id.run ((storage.files.write path text).run before)).map (Report.ofSave path stderr) id :=
      rfl
    rw [save, storage.write_files]
    dsimp only
    cases storage.write before path text with
    | ok after => rfl
    | error fault => rfl

/-- How a run can end, and the state it leaves. -/
inductive Ends (s : Settings) (storage : Storage σ) (before : σ) : Report → σ → Prop
  /-- The document cannot be read. -/
  | unreadable {fault : FileFault} (unread : storage.read before s.graph = .error fault) :
    Ends s storage before (.fileFailure s.graph fault) before
  /-- What is read is not the document of a graph. -/
  | malformed {document : String} {fault : Document.Malformed}
    (read : storage.read before s.graph = .ok document)
    (unloaded : Document.load document = .error (.malformed fault)) :
    Ends s storage before (.failure 2 fault.diagnostic.text) before
  /-- A node of the document has the greatest id there is. -/
  | outOfIds {document : String} (read : storage.read before s.graph = .ok document)
    (unloaded : Document.load document = .error .outOfIds) :
    Ends s storage before .outOfIds before
  /-- The stage finds a fault in the graph. -/
  | faulty {g : Graph} {fault : Fault} (loaded : storage.Loads before s.graph g)
    (failed : s.stage.Fails g fault) :
    Ends s storage before (.failure 1 fault.diagnostic.text) before
  /-- The text goes to the standard output. -/
  | printed {g : Graph} {text : String} {placeholders : List Placeholder}
    (loaded : storage.Loads before s.graph g)
    (made : s.stage.Makes s.options g text placeholders) (noPath : s.output = none) :
    Ends s storage before ⟨0, text, warnings placeholders⟩ before
  /-- The text goes to a file. -/
  | stored {g : Graph} {text path : String} {placeholders : List Placeholder} {after : σ}
    (loaded : storage.Loads before s.graph g)
    (made : s.stage.Makes s.options g text placeholders) (toPath : s.output = some path)
    (written : storage.write before path text = .ok after) :
    Ends s storage before ⟨0, "", warnings placeholders⟩ after
  /-- The file cannot be written. -/
  | unwritable {g : Graph} {text path : String} {placeholders : List Placeholder}
    {fault : FileFault} (loaded : storage.Loads before s.graph g)
    (made : s.stage.Makes s.options g text placeholders) (toPath : s.output = some path)
    (unwritten : storage.write before path text = .error fault) :
    Ends s storage before (.ofSave path (warnings placeholders) (some fault)) before

variable {s : Settings} {storage : Storage σ} {before after : σ} {report : Report}

theorem exists_ends (s : Settings) (storage : Storage σ) (before : σ) :
    ∃ report after, s.Ends storage before report after := by
  cases read : storage.read before s.graph with
  | error fault => exact ⟨_, _, .unreadable read⟩
  | ok document =>
    match loaded : Document.load document with
    | .error (.malformed fault) => exact ⟨_, _, .malformed read loaded⟩
    | .error .outOfIds => exact ⟨_, _, .outOfIds read loaded⟩
    | .ok g =>
      have loads : storage.Loads before s.graph g := ⟨document, read, loaded⟩
      obtain ⟨text, placeholders, made⟩ | ⟨fault, failed⟩ := s.stage.makes_or_fails s.options g
      · cases toPath : s.output with
        | none => exact ⟨_, _, .printed loads made toPath⟩
        | some path =>
          cases written : storage.write before path text with
          | ok after => exact ⟨_, _, .stored loads made toPath written⟩
          | error fault => exact ⟨_, _, .unwritable loads made toPath written⟩
      · exact ⟨_, _, .faulty loads failed⟩

theorem Ends.run_eq (ends : s.Ends storage before report after) :
    Id.run ((s.run storage.files).run before) = (report, after) := by
  rw [run_files]
  cases ends with
  | unreadable unread => simp [plan, unread]
  | malformed read unloaded => simp [plan, read, unloaded]
  | outOfIds read unloaded => simp [plan, read, unloaded]
  | faulty loaded failed =>
    obtain ⟨document, read, loaded⟩ := loaded
    simp [plan, read, loaded, render_of_fails failed]
  | printed loaded made noPath =>
    obtain ⟨document, read, loaded⟩ := loaded
    simp [plan, read, loaded, render_of_makes made, noPath]
  | stored loaded made toPath written =>
    obtain ⟨document, read, loaded⟩ := loaded
    simp [plan, read, loaded, render_of_makes made, toPath, written, Report.ofSave]
  | unwritable loaded made toPath unwritten =>
    obtain ⟨document, read, loaded⟩ := loaded
    simp [plan, read, loaded, render_of_makes made, toPath, unwritten]

/-- A run ends in one way. -/
theorem Ends.unique {report' : Report} {after' : σ} (ends : s.Ends storage before report after)
    (other : s.Ends storage before report' after') : report = report' ∧ after = after' :=
  Prod.mk.inj (ends.run_eq.symm.trans other.run_eq)

theorem run_ends (s : Settings) (storage : Storage σ) (before : σ) :
    let ended := Id.run ((s.run storage.files).run before)
    s.Ends storage before ended.1 ended.2 := by
  obtain ⟨report, after, ends⟩ := s.exists_ends storage before
  rw [ends.run_eq]
  exact ends

/-- A run that fails says nothing on the standard output and leaves the files alone. -/
theorem Ends.silent (ends : s.Ends storage before report after) (failed : report.code ≠ 0) :
    report.stdout = "" ∧ after = before := by
  cases ends with
  | unreadable | malformed | outOfIds | faulty | unwritable => exact ⟨rfl, rfl⟩
  | printed | stored => exact absurd rfl failed

/-- A run that succeeds has delivered the text of the stage. -/
theorem Ends.delivered (ends : s.Ends storage before report after) (succeeded : report.code = 0) :
    ∃ g text placeholders, storage.Loads before s.graph g ∧
      s.stage.Makes s.options g text placeholders ∧ report.stderr = warnings placeholders ∧
      (s.output = none → report.stdout = text ∧ after = before) ∧
      ∀ path, s.output = some path →
        report.stdout = "" ∧ storage.write before path text = .ok after := by
  cases ends with
  | unreadable | malformed | outOfIds | faulty | unwritable => cases succeeded
  | printed loaded made noPath =>
    refine ⟨_, _, _, loaded, made, rfl, fun _ => ⟨rfl, rfl⟩, fun path toPath => ?_⟩
    cases noPath.symm.trans toPath
  | stored loaded made toPath written =>
    refine ⟨_, _, _, loaded, made, rfl, fun noPath => ?_, fun path toPath' => ?_⟩
    · cases noPath.symm.trans toPath
    · cases toPath.symm.trans toPath'
      exact ⟨rfl, written⟩

/-- A run with a text to deliver succeeds unless the text has to be written and cannot be. -/
theorem Ends.succeeds (ends : s.Ends storage before report after) {g : Graph} {text : String}
    {placeholders : List Placeholder} (loaded : storage.Loads before s.graph g)
    (made : s.stage.Makes s.options g text placeholders)
    (writable : ∀ path, s.output = some path →
      ∃ after, storage.write before path text = .ok after) :
    report.code = 0 := by
  cases toPath : s.output with
  | none => rw [(ends.unique (.printed loaded made toPath)).1]
  | some path =>
    obtain ⟨after, written⟩ := writable path toPath
    rw [(ends.unique (.stored loaded made toPath written)).1]

/-- A run ends with `1` exactly when the stage finds a fault in the graph. -/
theorem Ends.code_eq_one_iff (ends : s.Ends storage before report after) :
    report.code = 1 ↔ ∃ g fault, storage.Loads before s.graph g ∧ s.stage.Fails g fault := by
  constructor
  · intro code
    cases ends with
    | faulty loaded failed => exact ⟨_, _, loaded, failed⟩
    | _ => cases code
  · rintro ⟨g, fault, loaded, failed⟩
    rw [(ends.unique (.faulty loaded failed)).1]
    rfl

end Settings

/-! ### The command -/

/-- What comes of the command, when its arguments are read and ask for a run, is what comes of the
run. -/
theorem Storage.outcome_eq {σ : Type} (storage : Storage σ) {arguments : List String}
    {given : Given} {s : Settings} (parsed : readArguments arguments none {} = .ok given)
    (asked : given.settings = .ok s) (before : σ) :
    storage.outcome arguments before = Id.run ((s.run storage.files).run before) := by
  have read : settings arguments = .ok s := by
    rw [settings, parsed]
    exact asked
  rw [outcome, Command.run, read]

/-- **The outcome of a run.** Let some arguments be read and ask for a run, and let files be kept in
any way, of which only this is known: a write stores the whole text, or it fails and changes
nothing. A run that ends with a code other than `0` says nothing on the standard output and leaves
the files as they were. A run that ends with `0` has loaded a graph and made the text of the stage.
Without a path it says this text on the standard output, and the files are as they were. With a path
it says nothing there; the one change of the files is that the text was written to this path, and
the file holds it. A run does end so whenever there is such a text, and the file, if any, can be
written. It ends with `1` exactly when the document is loaded and the stage finds a fault in the
graph. Unless a run is asked to tell more, a successful one has on the standard error the lines
about the stand-in values, and nothing else. -/
theorem run_outcome {σ : Type} (storage : Storage σ) {arguments : List String} {given : Given}
    {s : Settings} (parsed : readArguments arguments none {} = .ok given)
    (asked : given.settings = .ok s) (before : σ) :
    ∃ path, given.graph = some path ∧
      let stage := given.stage.getD .source
      let report := (storage.outcome arguments before).1
      let after := (storage.outcome arguments before).2
      (report.code ≠ 0 → report.stdout = "" ∧ after = before) ∧
      (report.code = 0 →
        ∃ g text placeholders, storage.Loads before path g ∧
          stage.Makes given.options g text placeholders ∧
          (given.output = none → report.stdout = text ∧ after = before) ∧
          (∀ file, given.output = some file →
            report.stdout = "" ∧ storage.write before file text = .ok after ∧
            storage.held after file = some text.toUTF8) ∧
          (given.verbose = false → report.stderr = warnings placeholders)) ∧
      (∀ g text placeholders, storage.Loads before path g →
        stage.Makes given.options g text placeholders →
        (∀ file, given.output = some file →
          ∃ after, storage.write before file text = .ok after) →
        report.code = 0) ∧
      (report.code = 1 ↔ ∃ g fault, storage.Loads before path g ∧ stage.Fails g fault) := by
  obtain ⟨graph, output, stage, options⟩ :=
    Given.settings_eq_ok (Given.knownPreset_of_read parsed) asked
  refine ⟨s.graph, graph, ?_⟩
  rw [storage.outcome_eq parsed asked, ← output, ← stage, ← options]
  have ends := s.run_ends storage before
  refine ⟨ends.silent, fun succeeded => ?_, fun g text placeholders => ends.succeeds,
    ends.code_eq_one_iff⟩
  obtain ⟨g, text, placeholders, loaded, made, stderr, printed, stored⟩ := ends.delivered succeeded
  refine ⟨g, text, placeholders, loaded, made, printed, fun file toFile => ?_, fun _ => stderr⟩
  obtain ⟨stdout, written⟩ := stored file toFile
  exact ⟨stdout, written, storage.held_of_write written⟩

/-- The document of an output that takes a node of an unknown kind. -/
def blurDocument : String :=
  "\x7b\"nodes\":[\x7b\"id\":0,\"kind\":\"other\",\"tag\":\"blur\"\x7d," ++
    "\x7b\"id\":1,\"kind\":\"value_output\",\"inputs\":[0]\x7d]\x7d"

/-- The graph of `blurDocument`. -/
def blurGraph : Graph :=
  ⟨[⟨⟨0⟩, .control, .other "blur", []⟩, ⟨⟨1⟩, .control, .valueOutput, [⟨0⟩]⟩], ⟨2⟩⟩

/-- Files by their paths, with room for everything. -/
def shelf : Storage (String → Option ByteArray) where
  read files path :=
    match files path with
    | none => .error .noSuchFile
    | some bytes => ((String.fromUTF8? bytes).map .ok).getD (.error .notText)
  write files path text :=
    .ok fun other => if other = path then some text.toUTF8 else files other
  held files path := files path
  held_of_write written := by
    cases written
    exact if_pos rfl

/-- A text that the shelf holds can be read. -/
theorem read_shelf {files : String → Option ByteArray} {path text : String}
    (held : files path = some text.toUTF8) : shelf.read files path = .ok text := by
  have valid : text.toUTF8.IsValidUTF8 := text.isValidUTF8
  have decoded : String.fromUTF8? text.toUTF8 = some text := by
    rw [String.fromUTF8?, dif_pos valid]
    exact congrArg some (String.toByteArray_inj.mp rfl)
  simp only [shelf, held, decoded, Option.map_some, Option.getD_some]

/-- Only `blurDocument`, in `graphs/blur.json`. -/
def blurFiles : String → Option ByteArray :=
  fun path => if path = "graphs/blur.json" then some blurDocument.toUTF8 else none

/-- A run that takes `blurDocument` from one directory and stores its source in another one. -/
theorem run_outcome_blurFiles :
    let arguments := ["-o", "/tmp/blur", "--no-header", "graphs/blur.json"]
    ∃ given s, readArguments arguments none {} = .ok given ∧ given.settings = .ok s ∧
      let report := (shelf.outcome arguments blurFiles).1
      let after := (shelf.outcome arguments blurFiles).2
      report.code = 0 ∧ report.stdout = "" ∧
      report.stderr = "ngc: warning[W0301]: unhandled node kind: blur (n0)\n" ∧
      shelf.held after "/tmp/blur" = some ("import primitives\n\nproc evaluateGraph(): int =\n" ++
        "  let v0 = 0  # unhandled node kind: blur\n  return int(v0)\n").toUTF8 ∧
      shelf.held after "graphs/blur.json" = some blurDocument.toUTF8 := by
  intro arguments
  have parsed : readArguments arguments none {} = .ok
      { graph := some "graphs/blur.json", output := some "/tmp/blur", noHeader := true } := by
    decide +kernel
  obtain ⟨s, asked⟩ : ∃ s, Given.settings
      { graph := some "graphs/blur.json", output := some "/tmp/blur", noHeader := true } = .ok s :=
    ⟨_, rfl⟩
  have read : shelf.read blurFiles "graphs/blur.json" = .ok blurDocument := read_shelf (if_pos rfl)
  have loaded : Document.load blurDocument = .ok blurGraph := by decide +kernel
  obtain ⟨p, compiled⟩ : ∃ p, blurGraph.compile = .ok p := ⟨_, rfl⟩
  have made : blurGraph.compile.toOption.map (fun p =>
      (warnings p.placeholders, p.source ⟨.plain "evaluateGraph" [], .first, false⟩)) =
        some ("ngc: warning[W0301]: unhandled node kind: blur (n0)\n",
          "import primitives\n\nproc evaluateGraph(): int =\n" ++
          "  let v0 = 0  # unhandled node kind: blur\n  return int(v0)\n") := by decide +kernel
  rw [compiled, Except.toOption, Option.map_some, Option.some.injEq, Prod.mk.injEq] at made
  obtain ⟨lines, source⟩ := made
  obtain ⟨path, ⟨⟩, -, delivered, succeeds, -⟩ := run_outcome shelf parsed asked blurFiles
  have code : (shelf.outcome arguments blurFiles).1.code = 0 :=
    succeeds blurGraph _ _ ⟨_, read, loaded⟩ (.source compiled) fun _ _ => ⟨_, rfl⟩
  obtain ⟨g, text, standIns, ⟨document, read', loaded'⟩, made, -, stored, stderr⟩ := delivered code
  cases read.symm.trans read'
  cases loaded.symm.trans loaded'
  cases made with
  | source compiled' =>
    cases compiled.symm.trans compiled'
    obtain ⟨stdout, written, held⟩ := stored "/tmp/blur" rfl
    refine ⟨_, s, parsed, asked, code, stdout, (stderr rfl).trans lines, ?_, ?_⟩
    · rw [← source]
      exact held
    · have after := Except.ok.inj written
      rw [← after]
      rfl

end NodeGraph.Command
