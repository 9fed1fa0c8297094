import SmallLisp.Evaluator
import SmallLisp.Reading.Forest

/-! # Loading of sources

Sources are evaluated as texts and as files. A file is known by its place, which
is noted while its forms are evaluated; loading it again meanwhile is an error. -/

namespace SmallLisp

open EvalM

/-- The path with the source extension appended to its last name. An extension with
a slash makes a name only where nothing but `.` comes after the slash. -/
def extendName (extension : String) (p : Path) : Except HostFault Path :=
  let name := p.name ++ extension
  if p.name = "" then .error (.emptyFileName p.text)
  else if (Path.namesOf name).length ≠ 1 || name.toList.getLast? = some '/' then
    .error (.invalidFileName name)
  else
    let parts := ((Path.components name.toList).map String.ofList).filter (· ≠ "")
    .ok ⟨p.anchor, p.parent.names ++ parts⟩

/-- The paths at which an imported file may be: as it was written, seen from the
current file or from the working directory, and with the source extension
unless it has it. -/
def importCandidates (m : Machine) (current : Option Path) (text : String) :
    Except HostFault (List Path) :=
  let p := match current with
    | some file => file.parent.join (.ofText text)
    | none => (Path.ofNames m.files.directory).join (.ofText text)
  let extension := m.sourceExtension
  if extension.toList.isSuffixOf p.name.toList then .ok [p]
  else (extendName extension p).map fun extended => [p, extended]

/-- The place of the file that an import names. -/
def importPlace (m : Machine) (current : Option Path) (text : String) : Except Stop Place :=
  match importCandidates m current text with
  | .error fault => .error (.fault fault)
  | .ok candidates =>
    match m.files.firstFile? candidates with
    | .ok (some place) => .ok place
    | .ok none => .error (.error (.fileNotFound text))
    | .error fault => .error (.fault (.file fault))

/-- Runs `body` while a file is in progress and current. However the body ends,
the file is then no longer in progress and the previous one is current again. -/
def whileLoading {α : Type} (file : Path) (state : ImportState) (body : EvalM α) : EvalM α :=
  let leave (w : World) : World :=
    { w with imports := w.imports.map fun s => ⟨s.inProgress.erase file, state.current⟩ }
  fun w =>
    match body { w with imports := some ⟨file :: state.inProgress, some file⟩ } with
    | .ok a w => .ok a (leave w)
    | .error s w => .error s (leave w)

namespace Evaluator

variable (ev : Evaluator)

/-- A source is read as a whole before its first form is evaluated. -/
def evaluateText (source : String) (frame : FrameId) : EvalM Value := do
  let forms ← ofOutcome (Reading.read source)
  ev.evaluateForms .nil forms frame

/-- Evaluates the file at a place in a frame. -/
def loadPlace (place : Place) (frame : FrameId) : EvalM Value := do
  let file := Path.ofNames place
  match (← get).imports with
  | none => fail .importUnavailable
  | some state =>
    if file ∈ state.inProgress then fail (.circularImport file.text)
    else
      whileLoading file state do
        match ev.machine.files.readText place with
        | .error fault => fail (.fileUnreadable file.text fault)
        | .ok source => ev.evaluateText (String.ofList source) frame

/-- Evaluates the file that an import names in the importing frame. -/
def importFile (text : String) (frame : FrameId) : EvalM Value := do
  match (← get).imports with
  | none => fail .importUnavailable
  | some state =>
    match importPlace ev.machine state.current text with
    | .error s => stop s
    | .ok place => do
      note (.fileImported (Path.ofNames place).text)
      ev.loadPlace place frame

end Evaluator

end SmallLisp
