import SmallLisp.Proofs.Lockstep.Invariant
import SmallLisp.Session

/-! # Effects on frames

Names are bound and unbound only in the frame where a form is evaluated, and in frames
that are made on the way. Of any other frame, an evaluation can change nothing but
the values of the variables that are there. -/

namespace SmallLisp

open EvalM

namespace Table

variable {α : Type}

theorem mem_keys_of_contains {t : Table α} {name : String} (h : t.contains name = true) :
    name ∈ t.keys := by
  obtain ⟨value, hvalue⟩ := Option.isSome_iff_exists.1 h
  exact List.mem_map.2 ⟨(name, value), Store.findEntry_mem hvalue, rfl⟩

/-- A name that is set again keeps its place. -/
theorem keys_set_of_contains {t : Table α} {name : String} (h : t.contains name = true)
    (value : α) : (t.set name value).keys = t.keys := by
  rw [keys_set, if_pos (mem_keys_of_contains h)]

end Table

/-- A frame but for the values of its variables. -/
def Frame.outline (frame : Frame) : Option FrameId × List String × Table Function :=
  (frame.outer, frame.vars.keys, frame.procs)

namespace Store

def outline? (s : Store) (f : FrameId) : Option (Option FrameId × List String × Table Function) :=
  s.frames[f]?.map Frame.outline

variable (s : Store)

theorem outline?_makeChild {f : FrameId} (outer : FrameId) (h : f < s.frames.size) :
    (s.makeChild outer).2.outline? f = s.outline? f := by
  rw [outline?, frames_makeChild, if_neg (Nat.ne_of_lt h), outline?]

theorem outline?_change_of_ne {α : Type} (ns : Namespace α) {f g : FrameId}
    (op : Table α → Table α) (h : f ≠ g) : (s.change ns f op).outline? g = s.outline? g := by
  rw [outline?, frames_change_of_ne s ns op h, outline?]

/-- To set a variable that is there changes no outline. -/
theorem outline?_set_of_contains {f : FrameId} {name : String} (v : Value)
    (h : (s.table .vars f).contains name = true) (g : FrameId) :
    (s.set .vars f name v).outline? g = s.outline? g := by
  rw [outline?, set, frames_change, outline?]
  split
  · next hfg =>
    subst hfg
    rw [table_eq] at h
    cases hframe : s.frames[f]? with
    | none => rfl
    | some frame =>
      rw [hframe] at h
      have hkeys := Table.keys_set_of_contains (t := frame.vars) h v
      simp only [Option.map_some, Frame.outline, Namespace.vars, hkeys]
  · rfl

end Store

/-- From the store `s` on, no outlines change but those of some frames and of new ones. -/
def outlineInvariant (s : Store) (own : FrameId → Prop) : Invariant where
  toBounds := .all
  holds w := s.frames.size ≤ w.size ∧
    ∀ f < s.frames.size, ¬ own f → w.store.outline? f = s.outline? f
  active _ f := own f ∨ s.frames.size ≤ f
  active_mono _ h := h
  captured_of_active _ := trivial
  aside change h := by cases change <;> exact h
  makeChild {w outer} h := by
    refine ⟨?_, fun f hf hown => ?_⟩
    · rw [World.size_onStore_makeChild]
      exact Nat.le_succ_of_le h.1
    · have hsame := w.store.outline?_makeChild outer (Nat.lt_of_lt_of_le hf h.1)
      exact hsame.trans (h.2 f hf hown)
  active_child h := Or.inr h.1
  change {w _ g} ns op h hg := by
    refine ⟨?_, fun f hf hown => ?_⟩
    · rw [World.size_onStore_change]
      exact h.1
    · have hne : g ≠ f := by
        rintro rfl
        rcases hg with hg | hg
        · exact hown hg
        · exact Nat.not_le_of_lt hf hg
      exact (w.store.outline?_change_of_ne ns op hne).trans (h.2 f hf hown)
  overwrite {w _ _} v h hin := by
    refine ⟨?_, fun f hf hown => ?_⟩
    · exact h.1.trans_eq (w.size_onStore_change .vars _ _).symm
    · exact (w.store.outline?_set_of_contains v hin f).trans (h.2 f hf hown)

theorem sharesImports_outlineInvariant (s : Store) (own : FrameId → Prop) :
    (outlineInvariant s own).SharesImports where
  enter _ h _ := h
  leave _ h := h

theorem holds_outlineInvariant (w : World) (own : FrameId → Prop) :
    (outlineInvariant w.store own).holds w :=
  ⟨Nat.le_refl _, fun _ _ _ => rfl⟩

theorem matched_outlineInvariant (s : Store) (own : FrameId → Prop) (m : Machine) (fuel : Nat) :
    (outlineInvariant s own).coupling.Matched (.ofFuel m fuel) (.ofFuel m fuel) :=
  Coupling.matched_ofFuel (sharesImports_outlineInvariant s own).coupling (fun _ => trivial)
    (fun _ => trivial) m fuel

/-- A run in lockstep leaves the outlines of all frames but its own. -/
theorem outline?_worldAfter {α : Type} {Q : Nat → α → Prop} {x : EvalM α} {w : World}
    {own : FrameId → Prop} (h : (outlineInvariant w.store own).coupling.Lockstep w.size Q x x)
    {f : FrameId} (hf : f < w.size) (hown : ¬ own f) :
    (worldAfter x w).store.outline? f = w.store.outline? f :=
  (Invariant.after h (holds_outlineInvariant w own) (Bounds.admitsStore_all _) rfl).held.worlds.2.2
    f hf hown

theorem Evaluator.callNamed_of_function? {ev : Evaluator} {name : String} {args : List Value}
    {frame : FrameId} {p : Function} {w : World} (h : w.store.function? frame name = some p) :
    ev.callNamed name args frame w = ev.call p args frame w := by
  have hfunction : functionOf frame name w = .ok p w := by
    simp only [functionOf, bind, EStateM.bind, get, getThe, MonadStateOf.get, EStateM.get, h]
    rfl
  simp only [callNamed, bind, EStateM.bind, hfunction]

/-- An evaluation leaves the outlines of all frames but its own. -/
theorem outline?_evaluate (m : Machine) (fuel : Nat) (form : Value) {env f : FrameId} {w : World}
    (hf : f < w.size) (hne : f ≠ env) :
    (worldAfter (evaluate m fuel form env) w).store.outline? f = w.store.outline? f := by
  have hmatched := matched_outlineInvariant w.store (· = env) m fuel
  exact outline?_worldAfter (hmatched.evaluate (Bounds.admitsForm_all form) (Or.inl rfl)) hf hne

/-- The call of a built-in procedure that gets a fresh frame leaves all outlines. -/
theorem outline?_call (m : Machine) (fuel : Nat) {b : Builtin} (args : List Value)
    (env : FrameId) (w : World) (hb : b.inCallerFrame = false) :
    ∀ f < w.size,
      (worldAfter ((Evaluator.ofFuel m fuel).call (.builtin b) args env) w).store.outline? f =
        w.store.outline? f := by
  intro f hf
  let I := outlineInvariant w.store fun _ => False
  have hmatched : I.coupling.Matched (.ofFuel m fuel) (.ofFuel m fuel) :=
    matched_outlineInvariant w.store _ m fuel
  have happly : ∀ k, w.size ≤ k → I.coupling.Lockstep k I.Admits
      ((Evaluator.ofFuel m fuel).apply (.builtin b) args env)
      ((Evaluator.ofFuel m fuel).apply (.builtin b) args env) := fun k _ =>
    hmatched.applyBuiltin (fun form _ => Bounds.admitsForm_all form) trivial
      fun hin => by rw [hb] at hin; cases hin
  exact outline?_worldAfter (Coupling.Lockstep.call happly) hf not_false

/-- An evaluation leaves the outlines of all frames but its own; the call of a built-in
procedure that gets a fresh frame leaves its own too. -/
theorem evaluate_keeps_outlines (m : Machine) (fuel : Nat) (form : Value) (env : FrameId)
    (w : World) :
    (∀ f < w.size, f ≠ env →
      (worldAfter (evaluate m fuel form env) w).store.outline? f = w.store.outline? f) ∧
    ∀ (name : String) (args : List Value) (b : Builtin), form = .list (.symbol name :: args) →
      w.store.function? env name = some (.builtin b) → b.inCallerFrame = false →
      ∀ f < w.size,
        (worldAfter (evaluate m fuel form env) w).store.outline? f = w.store.outline? f := by
  constructor
  · exact fun f hf hne => outline?_evaluate m fuel form hf hne
  · rintro name args b rfl hb hcaller f hf
    cases fuel with
    | zero => rfl
    | succ fuel =>
      have hrun : evaluate m (fuel + 1) (.list (.symbol name :: args)) env w =
          (Evaluator.ofFuel m fuel).call (.builtin b) args env w :=
        Evaluator.callNamed_of_function? hb
      have hcall := outline?_call m fuel args env w hcaller f hf
      unfold worldAfter at hcall ⊢
      rw [hrun]
      exact hcall

/-- A machine without files and settings. -/
def Machine.bare : Machine := ⟨⟨.directory [], []⟩, [], []⟩

/-- Two frames, the inner one empty, with procedures to add and to define. -/
def worldOfTwo : World :=
  { World.bare with
    store := (((Store.bare.set .procs Store.root "+" (.builtin (.arithmetic .add))).set .procs
      Store.root "def" (.builtin .define)).makeChild Store.root).2 }

/-- The form `(+ (def x 1) 2)`. -/
def definitionInSum : Value :=
  .list [.symbol "+", .list [.symbol "def", .symbol "x", .int 1], .int 2]

/-- A name that is defined within an addition stays in no frame that was there. -/
theorem evaluate_keeps_outlines_addition :
    worldOfTwo.store.function? 1 "+" = some (.builtin (.arithmetic .add)) ∧
      (Builtin.arithmetic .add).inCallerFrame = false ∧
      ∀ f < worldOfTwo.size,
        (worldAfter (evaluate .bare 9 definitionInSum 1) worldOfTwo).store.outline? f =
          worldOfTwo.store.outline? f := by
  have hadd : worldOfTwo.store.function? 1 "+" = some (.builtin (.arithmetic .add)) := by cbv
  have hown := (evaluate_keeps_outlines .bare 9 definitionInSum 1 worldOfTwo).2 "+"
    [.list [.symbol "def", .symbol "x", .int 1], .int 2] (.arithmetic .add) rfl hadd rfl
  exact ⟨hadd, rfl, hown⟩

end SmallLisp
