import EndpointAtlas.Generator
import EndpointAtlas.Settings.Layer

/-!
How a generator is run. Its program is looked for on the search path and started with the document
to read; or there is no program to start, and then nothing happens.
-/

namespace EndpointAtlas.Generator

/-- What the program of a generator is started with: the payload of a document to read, the files as
they are, a directory to work in, and the environment together with the directory to write to. -/
structure Prepares (tree : Tree) (root : Location) (environment : Environment)
    (document : Document) (output : Path) (session : Shell.Session) : Prop where
  handed : session.input = Text.Glyph.ofString document.payload
  files : session.tree = tree
  working : session.working = root
  directed : session.bindings.get? outputVariable = some output.text
  inherited : ∀ name, name ≠ outputVariable → session.bindings.get? name = environment.get? name
  exported : session.exported = session.bindings.keys
  silent : session.output = []

theorem prepares_session (tree : Tree) (root : Location) (environment : Environment)
    (document : Document) (output : Path) :
    Prepares tree root environment document output
      (session tree root environment document output) where
  handed := rfl
  files := rfl
  working := rfl
  directed := (Table.get_insert ..).trans (if_pos rfl)
  inherited _ other := (Table.get_insert ..).trans (if_neg other)
  exported := rfl
  silent := rfl

/-- The program of a generator is found and can be run, and this is what it does. -/
inductive Starts (generator : Generator) (session : Shell.Session) : Shell.Step Nat → Prop where
  | program {program : Shell.Program} {step : Shell.Step Nat}
      (found : Shell.findProgram session.tree session.working session.searchPath
        generator.command.1 = .ok program)
      (runs : Shell.startProgram? (Shell.runText Shell.scriptDepth) generator.command.2 program =
        some step) :
      Starts generator session step

/-- The program of a generator is not found, or what is found cannot be run. -/
inductive Lacks (generator : Generator) (session : Shell.Session) : TreeFault → Prop where
  | missing {fault : TreeFault}
      (lost : Shell.findProgram session.tree session.working session.searchPath
        generator.command.1 = .error fault) :
      Lacks generator session fault
  | refused {program : Shell.Program}
      (found : Shell.findProgram session.tree session.working session.searchPath
        generator.command.1 = .ok program)
      (refuses : Shell.startProgram? (Shell.runText Shell.scriptDepth) generator.command.2 program =
        none) :
      Lacks generator session .notRunnable

section

variable {generator : Generator} {session : Shell.Session}

theorem name_of_name (name : String) (shell : Bool) : (ofName name shell).name = name := by
  cases shell <;> rfl

theorem starts_or_lacks (generator : Generator) (session : Shell.Session) :
    (∃ step, generator.Starts session step) ∨ ∃ fault, generator.Lacks session fault := by
  cases found : Shell.findProgram session.tree session.working session.searchPath
      generator.command.1 with
  | error fault => exact .inr ⟨fault, .missing found⟩
  | ok program =>
      cases runs : Shell.startProgram? (Shell.runText Shell.scriptDepth) generator.command.2
          program with
      | some step => exact .inl ⟨step, .program found runs⟩
      | none => exact .inr ⟨.notRunnable, .refused found runs⟩

/-- The program is run to its end, apart from the one that started it. -/
theorem run_of_starts {step : Shell.Step Nat} {after : Shell.Session}
    {result : Except Shell.Stop Nat} (starts : generator.Starts session step)
    (ends : Shell.Step.outcome (Shell.Step.apart step) session = (after, result)) :
    generator.run session = (after.tree, after.output, generator.verdict result) := by
  obtain ⟨found, runs⟩ := starts
  have started : generator.step session = .ok step := by
    unfold Generator.step
    simp only [found, runs]
  unfold run
  rw [started]
  simp only [ends]

theorem run_of_lacks {fault : TreeFault} (lacks : generator.Lacks session fault) :
    generator.run session =
      (session.tree, [], .error (.plugin generator.name (generator.startFault fault))) := by
  have stopped : generator.step session = .error (generator.startFault fault) := by
    unfold Generator.step
    cases lacks with
    | missing lost => simp only [lost]
    | refused found refuses => simp only [found, refuses]
  unfold run
  rw [stopped]

end

end EndpointAtlas.Generator
