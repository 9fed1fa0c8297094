import SmallLisp.Proofs.Execution
import SmallLisp.Proofs.FrameEffects
import SmallLisp.Proofs.ImportGraph

/-! # Cycles of imports

Files that consist of constants and of imports are evaluated to their ends, unless one
of them reaches a cycle of imports: then it is an error that names a file on a cycle.
The files in progress are a trail through the graph of imports, so that imports are
nested no deeper than there are files. -/

namespace SmallLisp

open EvalM Relation

/-- The world is as it was, but for the journal, the next number and the random choices. -/
structure World.Kept (w w' : World) : Prop where
  store : w'.store = w.store
  imports : w'.imports = w.imports

namespace World.Kept

variable {w w' w'' : World}

theorem refl (w : World) : Kept w w := ⟨rfl, rfl⟩

theorem trans (h : Kept w w') (h' : Kept w' w'') : Kept w w'' :=
  ⟨h'.store.trans h.store, h'.imports.trans h.imports⟩

end World.Kept

def World.noted (w : World) (e : Note) : World :=
  { w with journal := w.journal.push (.noted e) }

theorem World.kept_noted (w : World) (e : Note) : w.Kept (w.noted e) := ⟨rfl, rfl⟩

/-- How what is run for the file at `a` may end: with a value if it is safe, else with an
error that names a file on a cycle. -/
inductive Verdict {α : Type} (m : Machine) (a : Place) (w : World) (safe : Prop) :
    EStateM.Result Stop World α → Prop
  | done {v : α} {w' : World} (hsafe : safe) (hkept : w.Kept w') : Verdict m a w safe (.ok v w')
  | circular {q : Place} {w' : World} (hsafe : ¬ safe) (hreach : ReflTransGen (Imports m) a q)
      (hcycle : TransGen (Imports m) q q) (hkept : w.Kept w') :
      Verdict m a w safe (.error (.error (.circularImport (Path.ofNames q).text)) w')

/-- With fuel from `n` on, a run always ends in the same way. -/
def Settles {α : Type} (m : Machine) (a : Place) (n : Nat) (x : Nat → EvalM α) (w : World)
    (safe : Prop) : Prop :=
  ∃ r, Verdict m a w safe r ∧ ∀ fuel, n ≤ fuel → x fuel w = r

section

variable {α β : Type} {m : Machine} {a : Place} {n : Nat} {w w' : World} {safe : Prop}

theorem Verdict.of_kept (hkept : w.Kept w') {r : EStateM.Result Stop World α}
    (h : Verdict m a w' safe r) : Verdict m a w safe r := by
  cases h with
  | done hsafe h => exact .done hsafe (hkept.trans h)
  | circular hsafe hreach hcycle h => exact .circular hsafe hreach hcycle (hkept.trans h)

namespace Settles

theorem pure (v : α) : Settles m a n (fun _ => Pure.pure v) w True :=
  ⟨.ok v w, .done trivial (.refl w), fun _ _ => rfl⟩

theorem of_iff {safe' : Prop} (hiff : safe ↔ safe') {x : Nat → EvalM α}
    (h : Settles m a n x w safe) : Settles m a n x w safe' := by
  rwa [← propext hiff]

/-- A run that goes over into another one settles as that does. -/
theorem of_step {x y : Nat → EvalM α} (hkept : w.Kept w')
    (hstep : ∀ fuel, n ≤ fuel → y fuel w = x fuel w') (h : Settles m a n x w' safe) :
    Settles m a n y w safe := by
  obtain ⟨r, hr, hrun⟩ := h
  exact ⟨r, hr.of_kept hkept, fun fuel hfuel => (hstep fuel hfuel).trans (hrun fuel hfuel)⟩

/-- A run that passes on less fuel needs more. -/
theorem of_less {x y : Nat → EvalM α} {k : Nat}
    (hless : ∀ fuel, n ≤ fuel → y (fuel + k) w = x fuel w) (h : Settles m a n x w safe) :
    Settles m a (n + k) y w safe := by
  obtain ⟨r, hr, hrun⟩ := h
  refine ⟨r, hr, fun fuel hfuel => ?_⟩
  obtain ⟨less, rfl⟩ := Nat.exists_eq_add_of_le' (Nat.le_of_add_left_le hfuel)
  have hn : n ≤ less := Nat.le_of_add_le_add_right hfuel
  rw [hless less hn, hrun less hn]

theorem note (e : Note) {x : Nat → EvalM α} (h : Settles m a n x (w.noted e) safe) :
    Settles m a n (fun fuel => do EvalM.note e; x fuel) w safe :=
  h.of_step (w.kept_noted e) fun _ _ => rfl

/-- What comes after a first part is run only if that is safe. -/
theorem bind {safe' : Prop} {x : Nat → EvalM α} {f : Nat → α → EvalM β}
    (h : Settles m a n x w safe)
    (hf : ∀ v w', w.Kept w' → Settles m a n (fun fuel => f fuel v) w' safe') :
    Settles m a n (fun fuel => x fuel >>= f fuel) w (safe ∧ safe') := by
  obtain ⟨r, hr, hrun⟩ := h
  cases hr with
  | circular hsafe hreach hcycle hkept =>
    refine ⟨_, .circular (fun h => hsafe h.1) hreach hcycle hkept, fun fuel hfuel => ?_⟩
    simp only [Bind.bind, EStateM.bind, hrun fuel hfuel]
  | @done v w' hsafe hkept =>
    obtain ⟨r, hr, hrest⟩ := hf v w' hkept
    have hverdict := hr.of_kept hkept
    have hiff : safe' ↔ safe ∧ safe' := (and_iff_right hsafe).symm
    rw [propext hiff] at hverdict
    refine ⟨r, hverdict, fun fuel hfuel => ?_⟩
    simp only [Bind.bind, EStateM.bind, hrun fuel hfuel]
    exact hrest fuel hfuel

end Settles

end

/-! ## Files in progress -/

/-- The files on a trail are in progress, the current file is given, and files can be
imported in the root frame. -/
structure World.InProgress (w : World) (trail : List Place) (current : Option Place) : Prop where
  imports : w.imports = some ⟨trail.map Path.ofNames, current.map Path.ofNames⟩
  procedure : w.store.function? Store.root "import" = some (.builtin .importFile)

theorem World.InProgress.kept {w w' : World} {trail : List Place} {current : Option Place}
    (h : w.InProgress trail current) (hkept : w.Kept w') : w'.InProgress trail current :=
  ⟨hkept.imports.trans h.imports, by rw [hkept.store, h.procedure]⟩

theorem Path.ofNames_injective : Function.Injective Path.ofNames := by
  intro names names' h
  cases h
  rfl

section

variable {m : Machine} {a p q : Place} {n : Nat} {w : World} {trail : List Place}
  {current : Option Place} {safe : Prop}

/-- A file that is entered is left again. -/
theorem World.Kept.leave {w' : World} {file : Path} {state : ImportState}
    (hstate : w.imports = some state) (h : (w.importing (state.entered file)).Kept w') :
    w.Kept { w' with imports := w'.imports.map fun s =>
      ⟨s.inProgress.erase file, state.current⟩ } := by
  refine ⟨h.store, ?_⟩
  have himports : w'.imports = some (state.entered file) := h.imports
  simp only [himports, hstate, ImportState.entered, Option.map_some, List.erase_cons_head]

theorem Settles.whileLoading {x : Nat → EvalM Value} {file : Path} {state : ImportState}
    (hstate : w.imports = some state)
    (h : Settles m a n x (w.importing (state.entered file)) safe) :
    Settles m a n (fun fuel => SmallLisp.whileLoading file state (x fuel)) w safe := by
  obtain ⟨r, hr, hrun⟩ := h
  simp only [World.importing, ImportState.entered] at hrun
  cases hr with
  | @done v w' hsafe hkept =>
    refine ⟨.ok v _, .done hsafe (hkept.leave hstate), fun fuel hfuel => ?_⟩
    simp only [SmallLisp.whileLoading, hrun fuel hfuel]
  | circular hsafe hreach hcycle hkept =>
    refine ⟨_, .circular hsafe hreach hcycle (hkept.leave hstate), fun fuel hfuel => ?_⟩
    simp only [SmallLisp.whileLoading, hrun fuel hfuel]

/-! ## Forms -/

theorem Evaluator.machine_ofFuel (m : Machine) (fuel : Nat) : (ofFuel m fuel).machine = m := by
  cases fuel <;> rfl

theorem isConstant_mark {form : Value} (h : form.isConstant = true) (next : Nat) :
    (form.mark next).1.isConstant = true := by
  cases form <;> first | rfl | cases h

theorem evaluate_constant {form : Value} (h : form.isConstant = true) (fuel : Nat)
    (frame : FrameId) :
    (Evaluator.ofFuel m (fuel + 1)).evaluate form frame = pure form := by
  cases form <;> first | rfl | cases h

/-- An import form imports in the frame where it is evaluated. -/
theorem evaluate_importForm (text : String) (fuel : Nat) {frame : FrameId}
    (h : w.store.function? frame "import" = some (.builtin .importFile)) :
    (Evaluator.ofFuel m (fuel + 3)).evaluate (importForm text) frame w =
      (do
        note (.evaluating "import" 1)
        note (.nativeCalled "import" 1)
        let v ← (Evaluator.ofFuel m (fuel + 1)).importFile text frame
        note (.returned v.unwrap)
        pure v.unwrap : EvalM Value) w :=
  Evaluator.callNamed_of_function? h

/-- An import loads the file that its text names. -/
theorem importFile_of_place {state : ImportState} {text : String} {place : Place}
    (hstate : w.imports = some state) (hplace : importPlace m state.current text = .ok place)
    (fuel : Nat) (frame : FrameId) :
    (Evaluator.ofFuel m fuel).importFile text frame w =
      (Evaluator.ofFuel m fuel).loadPlace place frame
        (w.noted (.fileImported (Path.ofNames place).text)) := by
  simp only [Evaluator.importFile, bind, EStateM.bind, get, getThe, MonadStateOf.get, EStateM.get,
    hstate, Evaluator.machine_ofFuel, hplace]
  rfl

/-- A file that is not in progress is so while its forms are evaluated. -/
theorem loadPlace_of_hasForms {state : ImportState} {place : Place} {forms : List Value}
    (hstate : w.imports = some state) (hnew : Path.ofNames place ∉ state.inProgress)
    (hforms : HasForms m place forms) (fuel : Nat) (frame : FrameId) :
    (Evaluator.ofFuel m fuel).loadPlace place frame w =
      whileLoading (.ofNames place) state
        ((Evaluator.ofFuel m fuel).evaluateForms .nil forms frame) w := by
  obtain ⟨source, hsource, hread⟩ := hforms
  simp only [Evaluator.loadPlace, bind, EStateM.bind, get, getThe, MonadStateOf.get, EStateM.get,
    hstate, if_neg hnew, Evaluator.machine_ofFuel, hsource, Evaluator.evaluateText, hread]
  rfl

/-- The first form of several is marked before it is evaluated. -/
theorem evaluateForms_cons (ev : Evaluator) (v form : Value) (forms : List Value)
    (frame : FrameId) (w : World) :
    ev.evaluateForms v (form :: forms) frame w =
      (do
        let v ← ev.evaluate (form.mark w.nextId).1 frame
        ev.evaluateForms v forms frame : EvalM Value)
        { w with nextId := (form.mark w.nextId).2 } := rfl

theorem settles_constant {form : Value} (h : form.isConstant = true) (hn : 1 ≤ n) :
    Settles m a n (fun fuel => (Evaluator.ofFuel m fuel).evaluate form Store.root) w True := by
  refine .of_step (.refl w) (fun fuel hfuel => ?_) (.pure form)
  obtain ⟨less, rfl⟩ := Nat.exists_eq_add_of_le' (hn.trans hfuel)
  rw [evaluate_constant h]

theorem settles_importForm {text : String} (h : w.InProgress trail current) (hn : 1 ≤ n)
    (hfile : ∀ w', w.Kept w' →
      Settles m a n (fun fuel => (Evaluator.ofFuel m fuel).importFile text Store.root) w' safe) :
    Settles m a (n + 2)
      (fun fuel => (Evaluator.ofFuel m fuel).evaluate (importForm text) Store.root) w safe := by
  have hrun : Settles m a n (fun fuel => do
      note (.evaluating "import" 1)
      note (.nativeCalled "import" 1)
      let v ← (Evaluator.ofFuel m fuel).importFile text Store.root
      note (.returned v.unwrap)
      pure v.unwrap) w safe := by
    refine .note _ (.note _ (.of_iff (and_iff_left trivial) ?_))
    refine .bind (hfile _ ?_) fun v w' _ => .note _ (.pure v.unwrap)
    exact (w.kept_noted _).trans (World.kept_noted _ _)
  refine hrun.of_less fun fuel hfuel => ?_
  obtain ⟨less, rfl⟩ := Nat.exists_eq_add_of_le' (hn.trans hfuel)
  exact evaluate_importForm text less h.procedure

/-- The file that an import names is loaded. -/
theorem settles_importFile {text : String} (h : w.InProgress trail (some p))
    (hnames : Names m p text q)
    (hload : ∀ w', w.Kept w' →
      Settles m a n (fun fuel => (Evaluator.ofFuel m fuel).loadPlace q Store.root) w' safe) :
    Settles m a n (fun fuel => (Evaluator.ofFuel m fuel).importFile text Store.root) w safe := by
  have himports : w.imports = some ⟨trail.map Path.ofNames, some (.ofNames p)⟩ := h.imports
  exact .of_step (w.kept_noted _) (fun fuel _ => importFile_of_place himports hnames fuel _)
    (hload _ (w.kept_noted _))

/-- Constants and imports are evaluated one after another, as long as it is safe to load
what is imported. -/
theorem settles_evaluateForms {forms : List Value} (hn : 1 ≤ n)
    (hforms : ∀ form ∈ forms,
      form.isConstant = true ∨ ∃ text q, form = importForm text ∧ Names m p text q)
    (hload : ∀ text q, importForm text ∈ forms → Names m p text q →
      ∀ w : World, w.InProgress trail (some p) →
        Settles m a n (fun fuel => (Evaluator.ofFuel m fuel).loadPlace q Store.root) w
          (Acyclic m q)) (v : Value) (h : w.InProgress trail (some p)) :
    Settles m a (n + 2)
      (fun fuel => (Evaluator.ofFuel m fuel).evaluateForms v forms Store.root) w
      (AcyclicImports m p forms) := by
  induction forms generalizing v w with
  | nil => exact .of_iff (iff_of_true trivial acyclicImports_nil) (.pure v)
  | cons form forms ih =>
    have hrest : ∀ (v : Value) (w : World), w.InProgress trail (some p) →
        Settles m a (n + 2)
          (fun fuel => (Evaluator.ofFuel m fuel).evaluateForms v forms Store.root) w
          (AcyclicImports m p forms) :=
      fun v w hw => ih (fun form hform => hforms form (List.mem_cons_of_mem _ hform))
        (fun text q hmem => hload text q (List.mem_cons_of_mem _ hmem)) v hw
    have hmarked : w.Kept { w with nextId := (form.mark w.nextId).2 } := ⟨rfl, rfl⟩
    have hw := h.kept hmarked
    refine .of_step hmarked (fun fuel _ => evaluateForms_cons _ v form forms _ w) ?_
    rcases hforms form List.mem_cons_self with hconstant | ⟨text, q, rfl, hnames⟩
    · have hform := isConstant_mark hconstant w.nextId
      have hboth := (settles_constant hform (Nat.le_add_left 1 (n + 1))).bind
        fun v w' hkept => hrest v w' (hw.kept hkept)
      refine hboth.of_iff ?_
      rw [acyclicImports_cons_constant hconstant, and_iff_right trivial]
    · have himport : Settles m a (n + 2)
          (fun fuel => (Evaluator.ofFuel m fuel).evaluate (importForm text) Store.root)
          { w with nextId := w.nextId } (Acyclic m q) := by
        refine settles_importForm hw hn fun w' hkept => ?_
        refine settles_importFile (hw.kept hkept) hnames fun w'' hkept' => ?_
        exact hload text q List.mem_cons_self hnames w'' ((hw.kept hkept).kept hkept')
      have hboth := himport.bind fun v w' hkept => hrest v w' (hw.kept hkept)
      exact hboth.of_iff (acyclicImports_cons_importForm hnames).symm

/-! ## Files -/

/-- To load a file that is in progress is an error. -/
theorem loadPlace_of_mem (h : w.InProgress trail current) (hp : p ∈ trail) (fuel : Nat) :
    (Evaluator.ofFuel m fuel).loadPlace p Store.root w =
      .error (.error (.circularImport (Path.ofNames p).text)) w := by
  simp only [Evaluator.loadPlace, bind, EStateM.bind, get, getThe, MonadStateOf.get, EStateM.get,
    h.imports, if_pos (List.mem_map_of_mem hp)]
  rfl

theorem settles_loadPlace_of_mem (htrail : Trail m trail p)
    (hreach : ReflTransGen (Imports m) a p) (h : w.InProgress trail current) (hp : p ∈ trail) :
    Settles m a n (fun fuel => (Evaluator.ofFuel m fuel).loadPlace p Store.root) w
      (Acyclic m p) :=
  ⟨_, .circular (htrail.not_acyclic hp) hreach (htrail.leads p hp) (.refl w),
    fun fuel _ => loadPlace_of_mem h hp fuel⟩

theorem loadPlace_of_not_mem {forms : List Value} (h : w.InProgress trail current)
    (hp : p ∉ trail) (hforms : HasForms m p forms) (fuel : Nat) :
    (Evaluator.ofFuel m fuel).loadPlace p Store.root w =
      whileLoading (.ofNames p) ⟨trail.map Path.ofNames, current.map Path.ofNames⟩
        ((Evaluator.ofFuel m fuel).evaluateForms .nil forms Store.root) w := by
  have hnew : Path.ofNames p ∉ trail.map Path.ofNames := by
    rwa [List.mem_map_of_injective Path.ofNames_injective]
  exact loadPlace_of_hasForms h.imports hnew hforms fuel Store.root

/-- The files that are left bound how deep imports are nested. -/
theorem settles_loadPlace (himports : ∀ p, ReflTransGen (Imports m) a p → OnlyImports m p)
    (hlength : m.files.tree.filePlaces.length ≤ trail.length + n) (htrail : Trail m trail p)
    (hreach : ReflTransGen (Imports m) a p) (h : w.InProgress trail current) :
    Settles m a (2 * n + 1) (fun fuel => (Evaluator.ofFuel m fuel).loadPlace p Store.root) w
      (Acyclic m p) := by
  induction n generalizing trail current p w with
  | zero =>
    obtain ⟨forms, hforms, -⟩ := himports p hreach
    have hp := htrail.mem_of_length_le hforms.mem_filePlaces hlength
    exact settles_loadPlace_of_mem htrail hreach h hp
  | succ n ih =>
    by_cases hp : p ∈ trail
    · exact settles_loadPlace_of_mem htrail hreach h hp
    · obtain ⟨forms, hforms, hall⟩ := himports p hreach
      refine .of_step (.refl w) (fun fuel _ => loadPlace_of_not_mem h hp hforms fuel) ?_
      refine .of_iff hforms.acyclic_iff.symm (.whileLoading h.imports ?_)
      -- What is imported is loaded with one file more on the trail.
      have hload : ∀ text q, importForm text ∈ forms → Names m p text q →
          ∀ w : World, w.InProgress (p :: trail) (some p) →
            Settles m a (2 * n + 1) (fun fuel => (Evaluator.ofFuel m fuel).loadPlace q Store.root)
              w (Acyclic m q) := by
        intro text q hmem hnames w hw
        have hedge : Imports m p q := ⟨forms, text, hforms, hmem, hnames⟩
        have hless : m.files.tree.filePlaces.length ≤ (p :: trail).length + n := by
          rw [List.length_cons]
          omega
        exact ih hless (htrail.cons hp hedge) (hreach.tail hedge) hw
      exact settles_evaluateForms (Nat.le_add_left 1 _) hall hload .nil ⟨rfl, h.procedure⟩

end

/-- A world in which a session with the built-in procedures starts. -/
theorem inProgress_fresh (input : Input) (draws : Nat → Draw) :
    World.InProgress { World.fresh input with draws } [] none :=
  ⟨rfl, World.function?_fresh input .importFile⟩

/-- Let a file and those that it reaches by imports consist of constants and of imports,
which name files. With fuel for as many imports within each other as there are files,
the file is evaluated to its end if it reaches no cycle of imports, and otherwise it is an
error that names a file on such a cycle. -/
theorem evaluateFile_detects_cycles (m : Machine) (text : String) (a : Place) (input : Input)
    (draws : Nat → Draw) (ha : m.files.resolve (Path.ofText text) = .ok a)
    (himports : ∀ p, ReflTransGen (Imports m) a p → OnlyImports m p) :
    ∃ r : EStateM.Result Stop World Value,
      (∀ fuel, 2 * m.files.tree.filePlaces.length + 1 ≤ fuel →
        (Evaluator.ofFuel m fuel).evaluateFile text { World.fresh input with draws } = r) ∧
      ((∀ p, ReflTransGen (Imports m) a p → ¬ TransGen (Imports m) p p) →
        ∃ v w, r = .ok v w) ∧
      ∀ p, ReflTransGen (Imports m) a p → TransGen (Imports m) p p →
        ∃ q w, ReflTransGen (Imports m) a q ∧ TransGen (Imports m) q q ∧
          r = .error (.error (.circularImport (Path.ofNames q).text)) w := by
  have hstart := (inProgress_fresh input draws).kept
    (World.kept_noted _ (.fileProcessed (Path.ofNames a).text))
  have hload := settles_loadPlace himports (Nat.le_add_left _ _) .nil .refl hstart
  obtain ⟨r, hr, hrun⟩ := hload.note
  refine ⟨r, fun fuel hfuel => ?_, fun hacyclic => ?_, fun p hreach hcycle => ?_⟩
  · have hplace : (Evaluator.ofFuel m fuel).filePlace text = .ok a := by
      rw [Evaluator.filePlace, Evaluator.machine_ofFuel, ha]
    rw [← hrun fuel hfuel, Evaluator.evaluateFile, hplace]
  · cases hr with
    | done _ _ => exact ⟨_, _, rfl⟩
    | circular hsafe => exact absurd hacyclic hsafe
  · cases hr with
    | done hsafe _ => exact absurd hcycle (hsafe p hreach)
    | circular _ hreach hcycle _ => exact ⟨_, _, hreach, hcycle, rfl⟩

/-- One file imports another one twice, first through a link, and a third one imports
itself. -/
def linkedImport : Machine where
  files := ⟨.directory
    [("a.ssli", .file "(import \"b\") (import \"b.ssli\")".toUTF8.toList),
      ("b", .link "b.ssli"), ("b.ssli", .file "1".toUTF8.toList),
      ("c.ssli", .file "(import \"c\")".toUTF8.toList)], []⟩
  environment := []
  users := []

theorem names_linkedImport :
    Names linkedImport ["a.ssli"] "b" ["b.ssli"] ∧
      Names linkedImport ["a.ssli"] "b.ssli" ["b.ssli"] ∧
      Names linkedImport ["c.ssli"] "c" ["c.ssli"] := by
  have hfile : linkedImport.files.locate ⟨.root, ["b.ssli"]⟩ = .ok ["b.ssli"] := by
    change linkedImport.files.follow 40 [] [.enter "b.ssli"] = _
    cbv
  have hlink : linkedImport.files.locate ⟨.root, ["b"]⟩ = .ok ["b.ssli"] := by
    change linkedImport.files.follow 40 [] [.enter "b"] = _
    rw [FileSystem.follow]
    change linkedImport.files.follow 39 [] [.enter "b.ssli"] = _
    cbv
  have hbare : linkedImport.files.locate ⟨.root, ["c"]⟩ = .error .missing := by
    change linkedImport.files.follow 40 [] [.enter "c"] = _
    cbv
  have hextended : linkedImport.files.locate ⟨.root, ["c.ssli"]⟩ = .ok ["c.ssli"] := by
    change linkedImport.files.follow 40 [] [.enter "c.ssli"] = _
    cbv
  have hc : importCandidates linkedImport (some (.ofNames ["c.ssli"])) "c" =
      .ok [⟨.root, ["c"]⟩, ⟨.root, ["c.ssli"]⟩] := rfl
  have hb : importCandidates linkedImport (some (.ofNames ["a.ssli"])) "b" =
      .ok [⟨.root, ["b"]⟩, ⟨.root, ["b.ssli"]⟩] := rfl
  have hb' : importCandidates linkedImport (some (.ofNames ["a.ssli"])) "b.ssli" =
      .ok [⟨.root, ["b.ssli"]⟩] := rfl
  simp only [Names, importPlace, hb, hb', hc, FileSystem.firstFile?, FileSystem.file?,
    FileSystem.place?, hfile, hlink, hbare, hextended]
  exact ⟨rfl, rfl, rfl⟩

theorem resolve_linkedImport :
    linkedImport.files.resolve (Path.ofText "a.ssli") = .ok ["a.ssli"] ∧
      linkedImport.files.resolve (Path.ofText "c.ssli") = .ok ["c.ssli"] := by
  have hnil (reached : Path) : linkedImport.files.resolveFrom 2 [] reached [] = .ok reached := by
    rw [FileSystem.resolveFrom]
  have ha : linkedImport.files.resolveFrom 2 [] ⟨.here, []⟩ ["a.ssli"] =
      .ok ⟨.here, ["a.ssli"]⟩ := by
    rw [FileSystem.resolveFrom]
    · exact hnil ⟨.here, ["a.ssli"]⟩
    · simp
  have hc : linkedImport.files.resolveFrom 2 [] ⟨.here, []⟩ ["c.ssli"] =
      .ok ⟨.here, ["c.ssli"]⟩ := by
    rw [FileSystem.resolveFrom]
    · exact hnil ⟨.here, ["c.ssli"]⟩
    · simp
  have hbound : linkedImport.files.linkBound = 2 := rfl
  have htexts : Path.ofText "a.ssli" = ⟨.here, ["a.ssli"]⟩ ∧
      Path.ofText "c.ssli" = ⟨.here, ["c.ssli"]⟩ := ⟨rfl, rfl⟩
  simp only [htexts, FileSystem.resolve, hbound, Path.isAbsolute, ne_eq, not_true_eq_false,
    decide_false, Bool.false_eq_true, if_false, ha, hc]
  exact ⟨rfl, rfl⟩

/-- The first file is evaluated to its end, the one that imports itself is not. -/
theorem evaluateFile_detects_cycles_linkedImport :
    let run := fun text =>
      (Evaluator.ofFuel linkedImport 7).evaluateFile text
        { World.fresh ⟨[], false⟩ with draws := fun _ => .counting 0 }
    (∃ v w, run "a.ssli" = .ok v w) ∧
      ∃ q w, run "c.ssli" = .error (.error (.circularImport (Path.ofNames q).text)) w := by
  intro run
  obtain ⟨hlink, hfile, hself⟩ := names_linkedImport
  have ha : HasForms linkedImport ["a.ssli"] [importForm "b", importForm "b.ssli"] :=
    ⟨"(import \"b\") (import \"b.ssli\")".toList, by cbv, rfl⟩
  have hb : HasForms linkedImport ["b.ssli"] [.int 1] := ⟨['1'], by cbv, rfl⟩
  have hc : HasForms linkedImport ["c.ssli"] [importForm "c"] :=
    ⟨"(import \"c\")".toList, by cbv, rfl⟩
  have himports : ∀ p ∈ [["a.ssli"], ["b.ssli"], ["c.ssli"]],
      ∀ q, ReflTransGen (Imports linkedImport) p q → OnlyImports linkedImport q := by
    intro p hp
    refine onlyImports_of_closed ?_ hp
    simp only [List.forall_mem_cons, List.not_mem_nil, false_imp_iff, implies_true, and_true]
    refine ⟨⟨_, ha, ?_⟩, ⟨_, hb, ?_⟩, _, hc, ?_⟩
    · exact List.forall_mem_cons.2 ⟨.inr ⟨"b", _, .tail _ (.head _), rfl, hlink⟩,
        List.forall_mem_singleton.2 (.inr ⟨"b.ssli", _, .tail _ (.head _), rfl, hfile⟩)⟩
    · exact List.forall_mem_singleton.2 (.inl rfl)
    · exact List.forall_mem_singleton.2
        (.inr ⟨"c", _, .tail _ (.tail _ (.head _)), rfl, hself⟩)
  have hacyclic : Acyclic linkedImport ["a.ssli"] := by
    have hbase : Acyclic linkedImport ["b.ssli"] :=
      hb.acyclic_iff.2 ((acyclicImports_cons_constant rfl).2 acyclicImports_nil)
    rw [ha.acyclic_iff, acyclicImports_cons_importForm hlink, acyclicImports_cons_importForm hfile]
    exact ⟨hbase, hbase, acyclicImports_nil⟩
  have hcycle : TransGen (Imports linkedImport) ["c.ssli"] ["c.ssli"] :=
    .single ⟨_, "c", hc, List.mem_singleton_self _, hself⟩
  constructor
  · obtain ⟨r, hrun, hdone, -⟩ := evaluateFile_detects_cycles linkedImport "a.ssli" ["a.ssli"]
      ⟨[], false⟩ _ resolve_linkedImport.1 (himports _ (.head _))
    obtain ⟨v, w, rfl⟩ := hdone hacyclic
    exact ⟨v, w, hrun 7 (Nat.le_refl 7)⟩
  · obtain ⟨r, hrun, -, hcircular⟩ := evaluateFile_detects_cycles linkedImport "c.ssli" ["c.ssli"]
      ⟨[], false⟩ _ resolve_linkedImport.2 (himports _ (.tail _ (.tail _ (.head _))))
    obtain ⟨q, w, -, -, rfl⟩ := hcircular _ .refl hcycle
    exact ⟨q, w, hrun 7 (Nat.le_refl 7)⟩

end SmallLisp
