import SmallLisp.Proofs.ImportCycles
import SmallLisp.Proofs.ImportState

/-! # Imports as inlined forms

To import a file whose forms import nothing is to evaluate these forms in place. Nothing
else that the language has depends on the import state, and nothing at all on what is
already in the journal, so the forms do not notice that they were imported. -/

namespace SmallLisp

open EvalM

/-! ## Other ways of loading -/

namespace Evaluator

/-- What built-in procedures do where `load` stands for the import of a file. -/
def performLoading (load : String → FrameId → EvalM Value) (ev : Evaluator) (b : Builtin)
    (args : List Value) (frame : FrameId) : EvalM Value :=
  match b with
  | .importFile => do
    let text ← ev.textArgument "import" args 0 frame
    load text frame
  | b => ev.performBuiltin b args frame

/-- The interpreter in which files are imported by `load`, given the fuel that is left. -/
def ofFuelLoading (load : Nat → String → FrameId → EvalM Value) (m : Machine) : Nat → Evaluator
  | 0 => ⟨m, 0, fun _ _ => stop .outOfFuel, fun _ _ _ => stop .outOfFuel⟩
  | fuel + 1 =>
    ⟨m, fuel + 1, fun form frame => (ofFuelLoading load m fuel).evaluateForm form frame,
      fun b args frame => (ofFuelLoading load m fuel).performLoading (load fuel) b args frame⟩

theorem performLoading_of_ne {b : Builtin} (h : b ≠ .importFile)
    (load : String → FrameId → EvalM Value) (ev : Evaluator) :
    ev.performLoading load b = ev.performBuiltin b := by
  cases b <;> first | rfl | exact absurd rfl h

theorem performLoading_importFile (ev : Evaluator) (b : Builtin) :
    ev.performLoading ev.importFile b = ev.performBuiltin b := by
  cases b <;> rfl

/-- The interpreter itself imports files by loading them. -/
theorem ofFuelLoading_importFile (m : Machine) (fuel : Nat) :
    ofFuelLoading (fun fuel => (ofFuel m fuel).importFile) m fuel = ofFuel m fuel := by
  induction fuel with
  | zero => rfl
  | succ fuel ih =>
    simp only [ofFuelLoading, ofFuel, ih, performLoading_importFile]

end Evaluator

/-- Whatever importing a file would do, it is the same run: no file is imported. -/
def ImportsNothing (m : Machine) (fuel : Nat) (forms : List Value) (frame : FrameId) (w : World) :
    Prop :=
  ∀ load : Nat → String → FrameId → EvalM Value,
    (Evaluator.ofFuelLoading load m fuel).evaluateForms .nil forms frame w =
      (Evaluator.ofFuel m fuel).evaluateForms .nil forms frame w

namespace Coupling

variable {L : Coupling}

theorem Matched.performLoading {n : Nat} {ev₁ ev₂ : Evaluator} (h : L.Matched ev₁ ev₂)
    {load₁ load₂ : String → FrameId → EvalM Value}
    (hload : ∀ {n : Nat} (text : String) {frame : FrameId}, L.active n frame →
      L.Lockstep n L.Admits (load₁ text frame) (load₂ text frame))
    (hpermissive : L.Permissive) (b : Builtin) {args : List Value} {frame : FrameId}
    (hc : L.AdmitsCall n args frame) :
    L.Lockstep n (fun m v => L.Admits m v ∨ b.measures = true ∧ IsSize v)
      (ev₁.performLoading load₁ b args frame) (ev₂.performLoading load₂ b args frame) := by
  by_cases hb : b = .importFile
  · subst hb
    refine Lockstep.imp (P := L.Admits) ?_ fun _ _ _ hv => Or.inl hv
    exact (h.textArgument hc).bind fun text _ hm _ => hload text (hc.mono hm).active
  · rw [Evaluator.performLoading_of_ne hb, Evaluator.performLoading_of_ne hb]
    exact h.performBuiltin b (fun himport => absurd himport hb) (fun _ => hpermissive) hc

/-- Interpreters match whose ways to import a file are in lockstep. -/
theorem matched_ofFuelLoading (hsize : ∀ k : Nat, L.int k) (hpermissive : L.Permissive)
    {load₁ load₂ : Nat → String → FrameId → EvalM Value}
    (hload : ∀ (fuel : Nat) {n : Nat} (text : String) {frame : FrameId}, L.active n frame →
      L.Lockstep n L.Admits (load₁ fuel text frame) (load₂ fuel text frame))
    (m : Machine) (fuel : Nat) :
    L.Matched (.ofFuelLoading load₁ m fuel) (.ofFuelLoading load₂ m fuel) := by
  induction fuel with
  | zero => exact (nearlyMatched_zero m).matched hsize hpermissive
  | succ fuel ih =>
    refine NearlyMatched.matched ⟨rfl, rfl, ?_, ?_⟩ hsize hpermissive
    · exact fun hform hframe => ih.evaluateForm hform hframe
    · intro n b args frame hc
      have hperform := ih.performLoading (fun text => hload fuel text) hpermissive b hc
      exact hperform.withFaults fun _ => Or.inl

end Coupling

/-! ## Worlds apart in imports and journal -/

/-- The worlds agree in all but what is imported and what is in the journal. -/
structure World.Alike (w₁ w₂ : World) : Prop where
  store : w₁.store = w₂.store
  nextId : w₁.nextId = w₂.nextId
  input : w₁.input = w₂.input
  draws : w₁.draws = w₂.draws

theorem World.Alike.onStore {w₁ w₂ : World} (h : w₁.Alike w₂) (op : Store → Store) :
    (w₁.onStore op).Alike (w₂.onStore op) :=
  { h with store := by simp only [World.store_onStore, h.store] }

/-- Worlds that are alike, where import states and journals are related in a way that
events do not break. -/
def alikeCoupling (R : Option ImportState → Option ImportState → Journal → Journal → Prop)
    (hR : ∀ {i₁ i₂ j₁ j₂} (e : Event), R i₁ i₂ j₁ j₂ → R i₁ i₂ (j₁.push e) (j₂.push e)) :
    Coupling where
  toBounds := .all
  worlds w₁ w₂ := w₁.Alike w₂ ∧ R w₁.imports w₂.imports w₁.journal w₂.journal
  active _ _ := True
  active_mono _ _ := trivial
  captured_of_active _ := trivial
  faults _ := True
  faults_of_hosts _ _ := trivial
  size_eq h := congrArg (·.frames.size) h.1.store
  nextId_eq h := h.1.nextId
  input_eq h := h.1.input
  draws_eq h := h.1.draws
  frames_eq h _ := by rw [h.1.store]
  aside change h := by
    obtain ⟨⟨hstore, hnext, hinput, hdraws⟩, hr⟩ := h
    cases change with
    | record e => exact ⟨⟨hstore, hnext, hinput, hdraws⟩, hR e hr⟩
    | nextId n => exact ⟨⟨hstore, rfl, hinput, hdraws⟩, hr⟩
    | line => exact ⟨⟨hstore, hnext, by simp only [Aside.apply, hinput], hdraws⟩, hr⟩
    | draws choices => exact ⟨⟨hstore, hnext, hinput, rfl⟩, hr⟩
  makeChild h _ := ⟨h.1.onStore _, h.2⟩
  active_child _ := trivial
  set _ _ h _ := ⟨h.1.onStore _, h.2⟩
  overwrite _ h _ _ := ⟨h.1.onStore _, h.2⟩
  erase _ h _ := ⟨h.1.onStore _, h.2⟩
  define _ _ h _ := ⟨h.1.onStore _, h.2⟩

theorem World.Alike.eq {w₁ w₂ : World} (h : w₁.Alike w₂) :
    w₂ = { w₁ with imports := w₂.imports, journal := w₂.journal } := by
  obtain ⟨hstore, hnext, hinput, hdraws⟩ := h
  rw [hstore, hnext, hinput, hdraws]

namespace EvalM

variable {α : Type}

/-- The same ending in a world that is changed afterwards. -/
def changed (f : World → World) : EStateM.Result Stop World α → EStateM.Result Stop World α
  | .ok a w => .ok a (f w)
  | .error s w => .error s (f w)

theorem changed_changed (f g : World → World) (r : EStateM.Result Stop World α) :
    changed f (changed g r) = changed (f ∘ g) r := by
  cases r <;> rfl

theorem eq_changed {x y : EvalM α} {w₁ w₂ : World} {f : World → World}
    (houtcome : outcome x w₁ = outcome y w₂) (hworld : worldAfter y w₂ = f (worldAfter x w₁)) :
    y w₂ = changed f (x w₁) := by
  unfold outcome at houtcome
  unfold worldAfter at hworld
  revert houtcome hworld
  cases x w₁ <;> cases y w₂ <;> intro houtcome hworld <;> cases houtcome <;> cases hworld <;> rfl

theorem bind_eq_of_eq {β : Type} {x y : EvalM α} {w₁ w₂ : World} (h : x w₁ = y w₂)
    (f : α → EvalM β) : (x >>= f) w₁ = (y >>= f) w₂ := by
  simp only [bind, EStateM.bind, h]

/-- Runs a computation with another import state. -/
def underImports (imports : Option ImportState) (x : EvalM α) : EvalM α := fun w =>
  changed (·.importing w.imports) (x (w.importing imports))

end EvalM

/-- The worlds are the same but for their import states, which are given. -/
def importsCoupling (i₁ i₂ : Option ImportState) : Coupling :=
  alikeCoupling (fun i i' j j' => i = i₁ ∧ i' = i₂ ∧ j = j')
    fun e h => ⟨h.1, h.2.1, congrArg (·.push e) h.2.2⟩

/-- The worlds are the same but for how their journals begin. -/
def journalCoupling (j₁ j₂ : Journal) : Coupling :=
  alikeCoupling (fun i i' j j' => i = i' ∧ ∃ events : Journal, j = j₁ ++ events ∧ j' = j₂ ++ events)
    fun e ⟨himports, events, h₁, h₂⟩ =>
      ⟨himports, events.push e, by rw [h₁, Array.append_push], by rw [h₂, Array.append_push]⟩

theorem sharesImports_journalCoupling (j₁ j₂ : Journal) :
    (journalCoupling j₁ j₂).SharesImports where
  imports_eq h := h.2.1
  enter _ h _ := ⟨⟨h.1.store, h.1.nextId, h.1.input, h.1.draws⟩, rfl, h.2.2⟩
  leave _ h := ⟨⟨h.1.store, h.1.nextId, h.1.input, h.1.draws⟩, rfl, h.2.2⟩

section

variable {m : Machine} {fuel : Nat} {forms : List Value} {frame : FrameId} {w : World}

/-- To import a file with another import state is to import it in a world that has it. -/
theorem lockstep_underImports (i₁ i₂ : Option ImportState) (m : Machine) (fuel n : Nat)
    (text : String) (frame : FrameId) :
    (importsCoupling i₁ i₂).Lockstep n (importsCoupling i₁ i₂).Admits
      (underImports i₂ ((Evaluator.ofFuel m fuel).importFile text frame))
      ((Evaluator.ofFuel m fuel).importFile text frame) := by
  intro w₁ w₂ hw _
  obtain ⟨halike, hi₁, hi₂, hjournal⟩ := hw.worlds
  have hw₂ : w₂ = w₁.importing i₂ := by
    rw [halike.eq, hi₂, ← hjournal, World.importing]
  obtain ⟨himports, hsize⟩ := (Task.importing text).after_run m fuel frame (w := w₂)
  simp only [Task.run, worldAfter] at himports hsize
  have hends : ∀ u, u.imports = w₂.imports → w₂.size ≤ u.size →
      (importsCoupling i₁ i₂).After w₁ w₂ (u.importing w₁.imports) u := by
    intro u himports hsize
    refine ⟨⟨⟨⟨rfl, rfl, rfl, rfl⟩, hi₁, himports.trans hi₂, rfl⟩, Bounds.admitsStore_all _⟩, ?_,
      rfl, himports⟩
    rw [hw₂] at hsize
    exact hsize
  rw [underImports, ← hw₂]
  cases hrun : (Evaluator.ofFuel m fuel).importFile text frame w₂ with
  | ok v u =>
    rw [hrun] at himports hsize
    exact .ok (Bounds.admits_within fun _ _ => trivial) (hends u himports hsize)
  | error s u =>
    rw [hrun] at himports hsize
    exact .error (Coupling.Permissive.allows (fun _ => trivial) s) (hends u himports hsize)

/-- Forms that import nothing do not notice the import state. -/
theorem evaluateForms_importing (h : ImportsNothing m fuel forms frame w)
    (imports : Option ImportState) :
    (Evaluator.ofFuel m fuel).evaluateForms .nil forms frame (w.importing imports) =
      changed (·.importing imports)
        ((Evaluator.ofFuel m fuel).evaluateForms .nil forms frame w) := by
  -- On the side of `w`, importing a file would be done as on the other side.
  let load : Nat → String → FrameId → EvalM Value := fun fuel text frame =>
    underImports imports ((Evaluator.ofFuel m fuel).importFile text frame)
  have hmatched : (importsCoupling w.imports imports).Matched
      (.ofFuelLoading load m fuel) (.ofFuel m fuel) := by
    rw [← Evaluator.ofFuelLoading_importFile]
    apply Coupling.matched_ofFuelLoading
    · exact fun _ => trivial
    · exact fun _ => trivial
    · intro fuel n text frame _
      exact lockstep_underImports w.imports imports m fuel n text frame
  have hforms : ∀ form ∈ forms, (importsCoupling w.imports imports).AdmitsForm w.size form :=
    fun form _ => Bounds.admitsForm_all form
  have hrun : (importsCoupling w.imports imports).Lockstep w.size _
      ((Evaluator.ofFuelLoading load m fuel).evaluateForms .nil forms frame)
      ((Evaluator.ofFuel m fuel).evaluateForms .nil forms frame) :=
    hmatched.evaluateForms Bounds.admits_nil hforms trivial
  have hheld : (importsCoupling w.imports imports).Held w (w.importing imports) :=
    ⟨⟨⟨rfl, rfl, rfl, rfl⟩, rfl, rfl, rfl⟩, Bounds.admitsStore_all _⟩
  obtain ⟨halike, -, himports, hjournal⟩ := (hrun.after hheld rfl).held.worlds
  rw [← h load]
  apply eq_changed (hrun.outcome_eq hheld rfl)
  rw [halike.eq, himports, ← hjournal]
  rfl

/-- What is in the journal already makes no difference to a run. -/
theorem changed_of_lockstep {α : Type} {Q : Nat → α → Prop} {x : EvalM α} {w : World}
    {journal : Journal} (h : (journalCoupling w.journal journal).Lockstep w.size Q x x) :
    ∃ events, (worldAfter x w).journal = w.journal ++ events ∧
      x { w with journal } = changed (fun w => { w with journal := journal ++ events }) (x w) := by
  have hheld : (journalCoupling w.journal journal).Held w { w with journal } :=
    ⟨⟨⟨rfl, rfl, rfl, rfl⟩, rfl, #[], (Array.append_empty).symm, (Array.append_empty).symm⟩,
      Bounds.admitsStore_all _⟩
  obtain ⟨halike, himports, events, hleft, hright⟩ := (h.after hheld rfl).held.worlds
  refine ⟨events, hleft, eq_changed (h.outcome_eq hheld rfl) ?_⟩
  rw [halike.eq, ← himports, hright]

theorem matched_journalCoupling (j₁ j₂ : Journal) (m : Machine) (fuel : Nat) :
    (journalCoupling j₁ j₂).Matched (.ofFuel m fuel) (.ofFuel m fuel) :=
  Coupling.matched_ofFuel (sharesImports_journalCoupling j₁ j₂) (fun _ => trivial)
    (fun _ => trivial) m fuel

theorem evaluateForms_journal (m : Machine) (fuel : Nat) (forms : List Value) (frame : FrameId)
    (w : World) (journal : Journal) :
    ∃ events,
      (worldAfter ((Evaluator.ofFuel m fuel).evaluateForms .nil forms frame) w).journal =
        w.journal ++ events ∧
      (Evaluator.ofFuel m fuel).evaluateForms .nil forms frame { w with journal } =
        changed (fun w => { w with journal := journal ++ events })
          ((Evaluator.ofFuel m fuel).evaluateForms .nil forms frame w) := by
  apply changed_of_lockstep
  apply (matched_journalCoupling w.journal journal m fuel).evaluateForms Bounds.admits_nil
  · exact fun form _ => Bounds.admitsForm_all form
  · trivial

/-- Forms that import nothing are evaluated alike wherever they stand. -/
theorem evaluateForms_elsewhere (h : ImportsNothing m fuel forms frame w)
    (imports : Option ImportState) (journal : Journal) :
    ∃ events,
      (worldAfter ((Evaluator.ofFuel m fuel).evaluateForms .nil forms frame) w).journal =
        w.journal ++ events ∧
      (Evaluator.ofFuel m fuel).evaluateForms .nil forms frame { w with imports, journal } =
        changed (fun u => { u with imports, journal := journal ++ events })
          ((Evaluator.ofFuel m fuel).evaluateForms .nil forms frame w) := by
  obtain ⟨events, hjournal, hrun⟩ :=
    evaluateForms_journal m fuel forms frame (w.importing imports) journal
  refine ⟨events, ?_, hrun.trans ?_⟩
  · rw [worldAfter, evaluateForms_importing h] at hjournal
    unfold worldAfter
    revert hjournal
    cases (Evaluator.ofFuel m fuel).evaluateForms .nil forms frame w <;> exact id
  · rw [evaluateForms_importing h]
    cases (Evaluator.ofFuel m fuel).evaluateForms .nil forms frame w <;> rfl

theorem whileLoading_eq (file : Path) (state : ImportState) (x : EvalM Value) (w : World) :
    whileLoading file state x w =
      changed (fun u => { u with
        imports := u.imports.map fun s => ⟨s.inProgress.erase file, state.current⟩ })
        (x (w.importing (some (state.entered file)))) := by
  simp only [whileLoading, World.importing, ImportState.entered]
  cases x _ <;> rfl

/-- A file is loaded as its forms are evaluated, if these import nothing. -/
theorem whileLoading_inlined (h : ImportsNothing m fuel forms frame w) {state : ImportState}
    (hstate : w.imports = some state) (file : Path) (journal : Journal) :
    ∃ events,
      (worldAfter ((Evaluator.ofFuel m fuel).evaluateForms .nil forms frame) w).journal =
        w.journal ++ events ∧
      whileLoading file state ((Evaluator.ofFuel m fuel).evaluateForms .nil forms frame)
          { w with journal } =
        changed (fun u => { u with imports := w.imports, journal := journal ++ events })
          ((Evaluator.ofFuel m fuel).evaluateForms .nil forms frame w) := by
  obtain ⟨events, hjournal, hrun⟩ :=
    evaluateForms_elsewhere h (some (state.entered file)) journal
  refine ⟨events, hjournal, ?_⟩
  rw [whileLoading_eq]
  refine (congrArg _ hrun).trans ?_
  rw [changed_changed]
  congr 1
  funext u
  simp only [Function.comp, ImportState.entered, Option.map_some, List.erase_cons_head, hstate]

/-! ## Imports -/

@[simp] theorem Journal.output_append (j j' : Journal) :
    (j ++ j').output = j.output ++ j'.output := by
  simp only [Journal.output, Array.toList_append, List.map_append, String.join_append]

@[simp] theorem Journal.scriptLines_append (j j' : Journal) :
    (j ++ j').scriptLines = j.scriptLines ++ j'.scriptLines := by
  simp only [Journal.scriptLines, Array.toList_append, List.filterMap_append]

theorem Journal.output_returned (j : Journal) (v : Value) :
    Journal.output (j.push (.noted (.returned v))) = j.output := by
  simp [Journal.output, Event.output]

theorem Journal.scriptLines_returned (j : Journal) (v : Value) :
    Journal.scriptLines (j.push (.noted (.returned v))) = j.scriptLines := by
  simp [Journal.scriptLines, Event.scriptLine?]

/-- What an import notes before the file is evaluated. -/
def importNotes (place : Place) : Journal :=
  #[.noted (.evaluating "import" 1), .noted (.nativeCalled "import" 1),
    .noted (.fileImported (Path.ofNames place).text)]

variable {text : String} {place : Place} {state : ImportState}

theorem evaluate_importForm_of_hasForms (fuel : Nat)
    (hprocedure : w.store.function? frame "import" = some (.builtin .importFile))
    (hstate : w.imports = some state) (hplace : importPlace m state.current text = .ok place)
    (hnew : Path.ofNames place ∉ state.inProgress) (hforms : HasForms m place forms) :
    evaluate m (fuel + 3) (importForm text) frame w =
      (do
        let v ← whileLoading (.ofNames place) state
          ((Evaluator.ofFuel m (fuel + 1)).evaluateForms .nil forms frame)
        note (.returned v.unwrap)
        pure v.unwrap : EvalM Value) { w with journal := w.journal ++ importNotes place } := by
  have hnotes : ((w.noted (.evaluating "import" 1)).noted (.nativeCalled "import" 1)).noted
      (.fileImported (Path.ofNames place).text) =
      { w with journal := w.journal ++ importNotes place } := by
    simp only [World.noted, importNotes, Array.push_eq_append, Array.append_assoc]
    rfl
  have hload := loadPlace_of_hasForms (w := { w with journal := w.journal ++ importNotes place })
    hstate hnew hforms (fuel + 1) frame
  have hcalled : ((w.noted (.evaluating "import" 1)).noted (.nativeCalled "import" 1)).imports =
      some state := hstate
  have himport := importFile_of_place hcalled hplace (fuel + 1) frame
  rw [hnotes, hload] at himport
  rw [evaluate, evaluate_importForm text fuel hprocedure]
  exact bind_eq_of_eq himport _

theorem Journal.output_importNotes (j events : Journal) (place : Place) :
    Journal.output (j ++ importNotes place ++ events) = Journal.output (j ++ events) := by
  have hsilent : (importNotes place).output = "" := rfl
  rw [output_append, output_append, output_append, hsilent, String.append_empty]

theorem Journal.scriptLines_importNotes (j events : Journal) (place : Place) :
    Journal.scriptLines (j ++ importNotes place ++ events) = Journal.scriptLines (j ++ events) := by
  have hsilent : (importNotes place).scriptLines = [] := rfl
  rw [scriptLines_append, scriptLines_append, scriptLines_append, hsilent, List.append_nil]

/-- Let a path name a file that is not in progress, and let its forms import nothing where
they are evaluated in place. Then to import the file ends as to evaluate its forms in place,
but for a list of one element as the value, and with the same output. No variable and no
procedure in any frame is different afterwards. -/
theorem evaluate_importForm_inlined
    (hprocedure : w.store.function? frame "import" = some (.builtin .importFile))
    (hstate : w.imports = some state) (hplace : importPlace m state.current text = .ok place)
    (hnew : Path.ofNames place ∉ state.inProgress) (hforms : HasForms m place forms)
    (hnone : ImportsNothing m (fuel + 1) forms frame w) :
    let imported := evaluate m (fuel + 3) (importForm text) frame
    let inlined := (Evaluator.ofFuel m (fuel + 1)).evaluateForms .nil forms frame
    outcome imported w = (outcome inlined w).map Value.unwrap ∧
      (worldAfter imported w).Alike (worldAfter inlined w) ∧
      (worldAfter imported w).imports = (worldAfter inlined w).imports ∧
      (worldAfter imported w).journal.output = (worldAfter inlined w).journal.output ∧
      (worldAfter imported w).journal.scriptLines =
        (worldAfter inlined w).journal.scriptLines := by
  intro imported inlined
  obtain ⟨events, hjournal, hloaded⟩ := whileLoading_inlined hnone hstate (.ofNames place)
    (w.journal ++ importNotes place)
  have hkept := ((Task.forms forms).after_run m (fuel + 1) frame (w := w)).1
  have himported := evaluate_importForm_of_hasForms fuel hprocedure hstate hplace hnew
    hforms
  simp only [bind, EStateM.bind, hloaded] at himported
  simp only [Task.run, outcome, worldAfter, imported, inlined, himported] at hjournal hkept ⊢
  cases hrun : (Evaluator.ofFuel m (fuel + 1)).evaluateForms .nil forms frame w with
  | ok v u =>
    simp only [hrun] at hjournal hkept
    simp only [changed, note, hjournal]
    refine ⟨rfl, ⟨rfl, rfl, rfl, rfl⟩, hkept.symm, ?_, ?_⟩
    · exact (Journal.output_returned _ v.unwrap).trans (Journal.output_importNotes ..)
    · exact (Journal.scriptLines_returned _ v.unwrap).trans (Journal.scriptLines_importNotes ..)
  | error s u =>
    simp only [hrun] at hjournal hkept
    simp only [changed, hjournal]
    refine ⟨rfl, ⟨rfl, rfl, rfl, rfl⟩, hkept.symm, ?_, ?_⟩
    · exact Journal.output_importNotes ..
    · exact Journal.scriptLines_importNotes ..

end

/-- A directory with one file, which binds a variable and ends with a list. -/
def definingImport : Machine where
  files := ⟨.directory [("b.ssli", .file "(def y 2) (1)".toUTF8.toList)], []⟩
  environment := []
  users := []

theorem importPlace_definingImport :
    importPlace definingImport none "b.ssli" = .ok ["b.ssli"] := by
  have hfile : definingImport.files.locate ⟨.root, ["b.ssli"]⟩ = .ok ["b.ssli"] := by
    change definingImport.files.follow 40 [] [.enter "b.ssli"] = _
    cbv
  have hcandidates : importCandidates definingImport none "b.ssli" =
      .ok [⟨.root, ["b.ssli"]⟩] := rfl
  simp only [importPlace, hcandidates, FileSystem.firstFile?, FileSystem.file?,
    FileSystem.place?, hfile]
  rfl

theorem importsNothing_definition (m : Machine) (fuel : Nat) (name : String) (k l : Int)
    {frame : FrameId} {w : World}
    (hdefine : w.store.function? frame "def" = some (.builtin .define)) :
    ImportsNothing m (fuel + 3)
      [.list [.symbol "def", .symbol name, .int k], .list [.int l]] frame w := by
  intro load
  have hcall : (Evaluator.ofFuelLoading load m (fuel + 2)).call (.builtin .define)
        [.symbol name, .int k] frame =
      (Evaluator.ofFuel m (fuel + 2)).call (.builtin .define) [.symbol name, .int k] frame := by
    simp only [Evaluator.call, Evaluator.apply, Evaluator.ofFuelLoading, Evaluator.ofFuel,
      Evaluator.performLoading, Evaluator.performBuiltin, Evaluator.define,
      Evaluator.evaluateForm, Value.function?]
  have hfirst : (Evaluator.ofFuelLoading load m (fuel + 3)).evaluate
        (.list [.symbol "def", .symbol name, .int k]) frame w =
      (Evaluator.ofFuel m (fuel + 3)).evaluate
        (.list [.symbol "def", .symbol name, .int k]) frame w :=
    (Evaluator.callNamed_of_function? hdefine).trans
      ((congrFun hcall w).trans (Evaluator.callNamed_of_function? hdefine).symm)
  have hsecond : (Evaluator.ofFuelLoading load m (fuel + 3)).evaluate (.list [.int l]) frame =
      (Evaluator.ofFuel m (fuel + 3)).evaluate (.list [.int l]) frame := by
    simp only [Evaluator.ofFuelLoading, Evaluator.ofFuel, Evaluator.evaluateForm,
      Evaluator.evaluateList, Evaluator.evaluateAll, Value.function?]
  have hmarked : marked (.list [.symbol "def", .symbol name, .int k]) =
        pure (.list [.symbol "def", .symbol name, .int k]) ∧
      marked (.list [.int l]) = pure (.list [.int l]) := ⟨rfl, rfl⟩
  simp only [Evaluator.evaluateForms, hmarked, pure_bind, hsecond]
  exact bind_eq_of_eq hfirst _

/-- The file's last value is a list of one element, which the import folds. -/
theorem evaluate_importForm_inlined_definition :
    let w := World.fresh ⟨[], false⟩
    let forms : List Value := [.list [.symbol "def", .symbol "y", .int 2], .list [.int 1]]
    let imported := evaluate definingImport 9 (importForm "b.ssli") Store.root
    let inlined := (Evaluator.ofFuel definingImport 7).evaluateForms .nil forms Store.root
    outcome imported w = (outcome inlined w).map Value.unwrap ∧
      (worldAfter imported w).store = (worldAfter inlined w).store := by
  intro w forms imported inlined
  have hprocedure := World.function?_fresh ⟨[], false⟩ .importFile
  have hdefine := World.function?_fresh ⟨[], false⟩ .define
  have hforms : HasForms definingImport ["b.ssli"] forms :=
    ⟨"(def y 2) (1)".toList, by cbv, rfl⟩
  obtain ⟨houtcome, halike, -⟩ := evaluate_importForm_inlined hprocedure rfl
    importPlace_definingImport List.not_mem_nil hforms
    (importsNothing_definition definingImport 4 "y" 2 1 hdefine)
  exact ⟨houtcome, halike.store⟩

end SmallLisp
