import SmallLisp.CommandLine.Run

/-! # The command

Runs the command on the files and the terminal of this machine. A line of input
or an imported file is looked for only when an evaluation needs it: the
evaluation then starts over with it, which changes nothing of what it did before. -/

namespace SmallLisp

open CommandLine

/-- The settings that are made through environment variables. -/
def environment : IO (List (String × String)) := do
  let names := ["SSLI_SOURCE_EXTENSION", "SSLI_LOG_LEVEL", "SSLI_HISTORY_FILE", "HOME"]
  let found ← names.mapM fun name => do
    let value ← IO.getEnv name
    pure (value.map fun value => (name, value))
  pure (found.filterMap id)

/-- The home directories of the users of this machine. -/
def users : IO (List (String × String)) := do
  match ← EIO.toBaseIO (IO.FS.readFile "/etc/passwd") with
  | .error _ => pure []
  | .ok text => pure <| (Text.piecesBy (· == '\n') text.toList).filterMap fun line =>
    let fields := (Text.piecesBy (· == ':') line).map String.ofList
    match fields[0]?, fields[5]? with
    | some name, some home => some (name, home)
    | _, _ => none

/-- The machine with no files but the working directory. -/
def bareMachine : IO Machine := do
  let environment ← environment
  let users ← users
  let directory ← IO.currentDir
  let place := Path.namesOf directory.toString
  pure ⟨⟨.putDirectory place (.directory []), place⟩, environment, users⟩

/-- Adds what this machine has under a name in a directory of the tree. Where the
name leads elsewhere, it becomes a link. -/
def discoverName (files : FileSystem) (directory : Place) (name : String) : IO FileSystem := do
  let here := directory ++ [name]
  if name = ".." || (files.node? here).isSome then pure files
  else
    match ← EIO.toBaseIO (IO.FS.realPath (Path.ofNames here).text) with
    | .error _ => pure files
    | .ok found => do
      let place := Path.namesOf found.toString
      let tree :=
        if place = here then files.tree
        else .put (.link (Path.ofNames place).text) here files.tree
      if ← found.isDir then pure { files with tree := tree.putDirectory place }
      else
        match ← EIO.toBaseIO (IO.FS.readBinFile found) with
        | .error _ => pure files
        | .ok bytes => pure { files with tree := .put (.file bytes.toList) place tree }

/-- Adds what this machine has at a path, and the directories on the way. -/
def discover (files : FileSystem) (p : Path) : IO FileSystem :=
  (List.range p.names.length).foldlM
    (fun files i =>
      match files.place? ⟨p.anchor, p.names.take i⟩, p.names[i]? with
      | .ok (some directory), some name => discoverName files directory name
      | _, _ => pure files)
    files

/-- The files that a run has worked on, according to its journal. -/
def filesWorkedOn (journal : Journal) : List Path :=
  journal.toList.filterMap fun event =>
    match event with
    | .noted (.fileImported path) | .noted (.fileProcessed path) => some (.ofText path)
    | _ => none

/-- The path without the source extension. -/
def dropExtension (extension : String) (p : Path) : Path :=
  p.parent.enter (String.ofList (p.name.toList.take (p.name.length - extension.length)))

/-- Where an import that failed may have looked. -/
def placesToLook (m : Machine) (journal : Journal) (text : String) : List Path :=
  let currents := none :: (filesWorkedOn journal).map some
  let candidates := currents.flatMap fun current =>
    match importCandidates m current text with
    | .ok paths => paths
    | .error _ => []
  candidates ++ (candidates.filter fun p =>
    m.sourceExtension.toList.isSuffixOf p.name.toList && m.sourceExtension ≠ p.name).map
      (dropExtension m.sourceExtension)

/-- What an evaluation that stopped for want of it has to start over with: more
input, or more files. -/
def more? (m : Machine) (w : World) (s : Stop) (journal : Journal) :
    IO (Option (Machine × World)) := do
  match s with
  | .fault .interrupted => do
    let line ← (← IO.getStdin).getLine
    pure (some (m, { w with input := ⟨w.input.rest ++ line.toList, !line.isEmpty⟩ }))
  | .error (.fileNotFound text) => do
    let paths := placesToLook m journal text
    let files ← paths.foldlM discover m.files
    if paths.any fun p => (files.file? p).toOption ≠ (m.files.file? p).toOption then
      pure (some ({ m with files }, w))
    else pure none
  | _ => pure none

/-- Large enough for every loop that ends in practice. -/
def fuel : Nat := 0x1000000000000000

/-- Random choices made from bytes that the system gives. -/
def randomDraws : IO (Nat → Draw) := do
  let bytes ← IO.getRandomBytes 8
  pure fun i => .counting (mixHash (hash bytes.toList) (hash i)).toNat

/-- A run in progress: the machine as far as it is known, and the world. -/
structure Run where
  threshold : Int
  machine : Machine
  world : World

abbrev RunM := StateT Run IO

/-- Shows the events of a journal from the `shown`-th on. -/
def showEvents (threshold : Int) (shown : Nat) (journal : Journal) : IO Unit := do
  let events := journal.toList.drop shown
  IO.print (String.join (events.map Event.output))
  IO.eprint (String.join (events.map (Event.errorOutput threshold)))
  (← IO.getStdout).flush

/-- Runs a computation from a world, with all that it turns out to need. -/
partial def supply {α : Type} (body : Evaluator → EvalM α) (run : Run) (shown : Nat) :
    IO (Except Stop α × Run) := do
  match body (.ofFuel run.machine fuel) run.world with
  | .ok a world => do
    showEvents run.threshold shown world.journal
    pure (.ok a, { run with world })
  | .error s world => do
    showEvents run.threshold shown world.journal
    match ← more? run.machine run.world s world.journal with
    | some (machine, start) =>
      supply body { run with machine, world := start } world.journal.size
    | none => pure (.error s, { run with world })

def proceed {α : Type} (body : Evaluator → EvalM α) : RunM (Except Stop α) := fun run =>
  supply body run run.world.journal.size

/-- Takes lines from the terminal until it has no more, or one ends the session. -/
partial def converse : RunM (Except Stop Int) := do
  IO.print Interactive.prompt
  (← IO.getStdout).flush
  let line ← (← IO.getStdin).getLine
  if line.isEmpty then do
    IO.print "CTRL-D\n"
    pure (.ok 0)
  else
    match Text.trim line.toList with
    | [] => converse
    | line => do
      modify fun run => { run with world := { run.world with input := ⟨[], true⟩ } }
      let ending ← proceed fun ev => ev.evaluateText (String.ofList line) Store.root
      match ← proceed fun _ => Interactive.showEnding ending with
      | .ok _ => converse
      | .error s => pure (.error s)

def answerAction : Action → RunM (Except Stop Int)
  | .evaluate expression => do
    let ending ← proceed fun ev => ev.evaluateText expression Store.root
    proceed fun _ => conclude ending
  | .run file => do
    let files ← discover (← get).machine.files (.ofText file)
    modify fun run => { run with machine := { run.machine with files } }
    let ending ← proceed fun ev => ev.evaluateFile file
    proceed fun _ => conclude ending
  | .interact => converse

def exitCode : Except Stop Int → IO UInt32
  | .ok code => pure (UInt32.ofNat (code % 256).toNat)
  | .error s => do
    IO.eprintln s.message
    pure 1

def answerHere (r : Request) : IO UInt32 := do
  let m ← bareMachine
  let conversation : RunM (Except Stop Int) := do
    let _ ← proceed fun _ => opening r
    let ending ← answerAction r.action
    proceed fun _ => acceptExit ending
  let start := { World.initial ⟨[], true⟩ with draws := ← randomDraws }
  let (ending, _) ← conversation ⟨threshold m r.logLevel, m, start⟩
  exitCode ending

end SmallLisp

open SmallLisp SmallLisp.CommandLine in
def main (arguments : List String) : IO UInt32 := do
  match request arguments with
  | .ok r => answerHere r
  | .error (.help command) => do
    IO.print (helpText command)
    pure 0
  | .error .version => do
    IO.print versionText
    pure 0
  | .error (.misuse command what) => do
    IO.eprint (misuseText command what)
    pure 2
