import SmallLisp.Proofs.FrameEffects

/-! # Lexical scoping as non-interference

Two runs from stores that agree on all frames within reach of a form and its frame are
in lockstep, whatever the other frames hold. The frames within reach and those made on
the way stay the same in both; the others are neither read nor changed. -/

namespace SmallLisp

open EvalM

/-- Two worlds that differ at most in frames outside, which are still as in the stores
`s₁` and `s₂`. -/
structure AgreeWithin (s₁ s₂ : Store) (inside : FrameId → Prop) (w₁ w₂ : World) : Prop where
  size_le : s₁.frames.size ≤ w₁.size
  size_eq : w₁.size = w₂.size
  beside : w₂ = { w₁ with store := w₂.store }
  frames_eq : ∀ f, inside f → w₁.store.frames[f]? = w₂.store.frames[f]?
  left : ∀ f, ¬ inside f → w₁.store.frames[f]? = s₁.frames[f]?
  right : ∀ f, ¬ inside f → w₂.store.frames[f]? = s₂.frames[f]?

namespace AgreeWithin

variable {s₁ s₂ : Store} {inside : FrameId → Prop} {w₁ w₂ : World}

theorem aside (change : Aside) (h : AgreeWithin s₁ s₂ inside w₁ w₂) :
    AgreeWithin s₁ s₂ inside (change.apply w₁) (change.apply w₂) := by
  obtain ⟨hle, heq, hbeside, hframes, hleft, hright⟩ := h
  rw [hbeside]
  cases change <;> exact ⟨hle, heq, rfl, hframes, hleft, hright⟩

theorem makeChild (hnew : ∀ f, s₁.frames.size ≤ f → inside f) (outer : FrameId)
    (h : AgreeWithin s₁ s₂ inside w₁ w₂) :
    AgreeWithin s₁ s₂ inside (w₁.onStore fun s => (s.makeChild outer).2)
      (w₂.onStore fun s => (s.makeChild outer).2) := by
  have hsize : w₁.store.frames.size = w₂.store.frames.size := h.size_eq
  have hne : ∀ f, ¬ inside f → f ≠ w₁.store.frames.size := by
    rintro f hf rfl
    exact hf (hnew _ h.size_le)
  refine ⟨?_, ?_, ?_, fun f hf => ?_, fun f hf => ?_, fun f hf => ?_⟩
  · rw [World.size_onStore_makeChild]
    exact Nat.le_succ_of_le h.size_le
  · rw [World.size_onStore_makeChild, World.size_onStore_makeChild, h.size_eq]
  · rw [World.onStore, h.beside]
    rfl
  · simp only [World.store_onStore, Store.frames_makeChild, hsize, h.frames_eq f hf]
  · simp only [World.store_onStore, Store.frames_makeChild, if_neg (hne f hf), h.left f hf]
  · simp only [World.store_onStore, Store.frames_makeChild, ← hsize, if_neg (hne f hf),
      h.right f hf]

/-- The same change is made to a frame inside in both worlds. -/
theorem change {α : Type} (ns : Namespace α) {f : FrameId} (op : Table α → Table α)
    (h : AgreeWithin s₁ s₂ inside w₁ w₂) (hf : inside f) :
    AgreeWithin s₁ s₂ inside (w₁.onStore (·.change ns f op)) (w₂.onStore (·.change ns f op)) := by
  have hne : ∀ g, ¬ inside g → f ≠ g := by
    rintro g hg rfl
    exact hg hf
  refine ⟨?_, ?_, ?_, fun g hg => ?_, fun g hg => ?_, fun g hg => ?_⟩
  · rw [World.size_onStore_change]
    exact h.size_le
  · rw [World.size_onStore_change, World.size_onStore_change]
    exact h.size_eq
  · rw [World.onStore, h.beside]
    rfl
  · simp only [World.store_onStore, Store.frames_change, h.frames_eq g hg]
  · rw [World.store_onStore, Store.frames_change_of_ne _ ns op (hne g hg)]
    exact h.left g hg
  · rw [World.store_onStore, Store.frames_change_of_ne _ ns op (hne g hg)]
    exact h.right g hg

theorem importing (h : AgreeWithin s₁ s₂ inside w₁ w₂) (imports : Option ImportState) :
    AgreeWithin s₁ s₂ inside (w₁.importing imports) (w₂.importing imports) := by
  obtain ⟨hle, heq, hbeside, hframes, hleft, hright⟩ := h
  refine ⟨hle, heq, ?_, hframes, hleft, hright⟩
  rw [hbeside]
  rfl

end AgreeWithin

variable {s₁ s₂ : Store} {inside : FrameId → Prop}

/-- Worlds that agree on all frames inside, among them all frames that are made, are held
against each other. Closures hold frames inside, and there all forms are evaluated. -/
def Coupling.agreeing (s₁ s₂ : Store) (inside : FrameId → Prop)
    (hnew : ∀ f, s₁.frames.size ≤ f → inside f) : Coupling where
  toBounds := .within inside
  worlds := AgreeWithin s₁ s₂ inside
  active _ f := inside f
  active_mono _ h := h
  captured_of_active h := h
  faults _ := True
  faults_of_hosts _ _ := trivial
  size_eq h := h.size_eq
  nextId_eq h := by rw [h.beside]
  input_eq h := by rw [h.beside]
  draws_eq h := by rw [h.beside]
  frames_eq h hf := h.frames_eq _ hf
  aside change h := h.aside change
  makeChild h _ := h.makeChild hnew _
  active_child h := hnew _ h.size_le
  set name v h hf := h.change .vars (·.set name v) hf
  overwrite v h hf _ := h.change .vars (·.set _ v) hf
  erase name h hf := h.change .vars (·.erase name) hf
  define name p h hf := h.change .procs (·.set name p) hf

theorem Coupling.sharesImports_agreeing (hnew : ∀ f, s₁.frames.size ≤ f → inside f) :
    (Coupling.agreeing s₁ s₂ inside hnew).SharesImports where
  imports_eq h := by rw [AgreeWithin.beside h]
  enter file h _ := AgreeWithin.importing h _
  leave _ h := AgreeWithin.importing h _

/-! ## Evaluations -/

/-- Frames that can be reached from some frames of a world, or that are made later. -/
def World.InReach (w : World) (roots : List FrameId) (f : FrameId) : Prop :=
  w.store.Reaches roots f ∨ w.size ≤ f

/-- The frames outside are neither read nor changed. -/
theorem agreeWithin_evaluate (m : Machine) (fuel : Nat) (form : Value) (env : FrameId) (w : World)
    (s : Store) (hsize : s.frames.size = w.size)
    (hagree : ∀ f, w.store.Reaches (env :: form.captured) f →
      w.store.frames[f]? = s.frames[f]?) :
    outcome (evaluate m fuel form env) w =
        outcome (evaluate m fuel form env) { w with store := s } ∧
      AgreeWithin w.store s (w.InReach (env :: form.captured))
        (worldAfter (evaluate m fuel form env) w)
        (worldAfter (evaluate m fuel form env) { w with store := s }) := by
  have hnew : ∀ f, w.store.frames.size ≤ f → w.InReach (env :: form.captured) f :=
    fun f hf => Or.inr hf
  let L := Coupling.agreeing w.store s (w.InReach (env :: form.captured)) hnew
  have hmatched : L.Matched (.ofFuel m fuel) (.ofFuel m fuel) :=
    Coupling.matched_ofFuel (Coupling.sharesImports_agreeing hnew) (fun _ => trivial)
      (fun _ => trivial) m fuel
  have hworlds : AgreeWithin w.store s (w.InReach (env :: form.captured)) w
      { w with store := s } := by
    refine ⟨Nat.le_refl _, hsize.symm, rfl, fun f hf => ?_, fun _ _ => rfl, fun _ _ => rfl⟩
    rcases hf with hf | hf
    · exact hagree f hf
    · rw [Array.getElem?_eq_none hf, Array.getElem?_eq_none (hsize.trans_le hf)]
  -- No link leaves the frames within reach, which is what the bounds ask of the store.
  have hstore : L.AdmitsStore w.store := by
    refine Bounds.admitsStore_within fun f frame g hf hframe hg => ?_
    rcases hf with hf | hf
    · exact Or.inl (.link hf hframe hg)
    · rw [Array.getElem?_eq_none hf] at hframe
      cases hframe
  have hform : L.AdmitsForm w.size form :=
    Bounds.admitsForm_within fun f hf => Or.inl (.root (List.mem_cons_of_mem env hf))
  have henv : L.active w.size env := Or.inl (.root List.mem_cons_self)
  have hrun := hmatched.evaluate hform henv
  have hheld : L.Held w { w with store := s } := ⟨hworlds, hstore⟩
  exact ⟨hrun.outcome_eq hheld rfl, (hrun.after hheld rfl).held.worlds⟩

/-! ## Calls of closures -/

/-- The start of a call of a closure: its parameters are bound in a fresh frame. -/
def Evaluator.enterClosure (ev : Evaluator) (c : Closure) (args : List Value) (caller : FrameId) :
    EvalM FrameId := do
  let own ← makeChild c.frame
  ev.bindForms c.params args own caller
  note (.closureCalled c.name c.params)
  pure own

theorem Evaluator.apply_closure (ev : Evaluator) (c : Closure) (args : List Value)
    (caller : FrameId) :
    ev.apply (.closure c) args caller = ev.enterClosure c args caller >>= ev.evaluate c.body := by
  simp only [apply, enterClosure, bind_assoc, pure_bind]

/-- A frame around which `outer` lies and that defines no procedures. -/
def Store.IsCallFrame (s : Store) (outer own : FrameId) : Prop :=
  ∃ keys, s.outline? own = some (some outer, keys, .empty)

namespace Store.IsCallFrame

variable {s : Store} {outer own : FrameId}

theorem lt_size (h : s.IsCallFrame outer own) : own < s.frames.size := by
  obtain ⟨keys, hkeys⟩ := h
  obtain ⟨frame, hframe, -⟩ := Option.map_eq_some_iff.1 hkeys
  exact (Array.getElem?_eq_some_iff.1 hframe).1

theorem set (h : s.IsCallFrame outer own) (name : String) (v : Value) :
    (s.set .vars own name v).IsCallFrame outer own := by
  obtain ⟨keys, hkeys⟩ := h
  obtain ⟨frame, hframe, houtline⟩ := Option.map_eq_some_iff.1 hkeys
  simp only [Frame.outline, Prod.mk.injEq] at houtline
  refine ⟨(frame.vars.set name v).keys, ?_⟩
  rw [outline?, Store.set, frames_change, if_pos rfl, hframe, ← houtline.1, ← houtline.2.2]
  rfl

theorem of_makeChild (s : Store) (outer : FrameId) :
    (s.makeChild outer).2.IsCallFrame outer s.frames.size := by
  refine ⟨[], ?_⟩
  rw [outline?, frames_makeChild, if_pos rfl]
  rfl

/-- The links of the frame of a call lead to the closure's frame and to what the
arguments hold. -/
theorem mem_links (h : s.IsCallFrame outer own) {frame : Frame} {g : FrameId}
    (hframe : s.frames[own]? = some frame) (hg : g ∈ frame.links) :
    g = outer ∨ g ∈ Value.capturedAll ((s.table .vars own).entries.map Prod.snd) := by
  obtain ⟨keys, hkeys⟩ := h
  rw [outline?, hframe, Option.map_some, Option.some.injEq] at hkeys
  simp only [Frame.outline, Prod.mk.injEq] at hkeys
  rw [Frame.links, hkeys.1, hkeys.2.2] at hg
  rw [table_eq, hframe]
  rcases List.mem_append.1 hg with hg | hg
  · rcases List.mem_append.1 hg with hg | hg
    · exact Or.inl (List.mem_singleton.1 hg)
    · exact Or.inr hg
  · exact absurd hg List.not_mem_nil

end Store.IsCallFrame

/-- The evaluation of argument forms leaves the frame of the call such a frame. -/
theorem isCallFrame_bindForms (m : Machine) (fuel : Nat) {outer own caller : FrameId}
    (hne : own ≠ caller) (names : List String) (forms : List Value) {w : World}
    (hw : w.store.IsCallFrame outer own) :
    (worldAfter ((Evaluator.ofFuel m fuel).bindForms names forms own caller) w).store.IsCallFrame
      outer own := by
  induction names generalizing forms w with
  | nil => exact hw
  | cons name names ih =>
    cases forms with
    | nil => exact hw
    | cons form forms =>
      -- The forms are evaluated in the caller's frame, so the frame of the call keeps its outline.
      have heval : (worldAfter (evaluate m fuel form caller) w).store.IsCallFrame outer own := by
        have hlt := hw.lt_size
        obtain ⟨keys, hkeys⟩ := hw
        exact ⟨keys, (outline?_evaluate m fuel form hlt hne).trans hkeys⟩
      refine worldAfter_bind (P := fun u => u.store.IsCallFrame outer own) heval fun v u hu => ?_
      exact worldAfter_bind (P := fun u => u.store.IsCallFrame outer own) (hu.set name v)
        fun _ t ht => ih forms ht

/-- After the start of a call, its frame lies in the frame of the closure. -/
theorem isCallFrame_of_enterClosure {m : Machine} {fuel : Nat} {c : Closure} {args : List Value}
    {caller own : FrameId} {w w' : World} (hcaller : caller < w.size)
    (h : (Evaluator.ofFuel m fuel).enterClosure c args caller w = .ok own w') :
    own = w.size ∧ w'.store.IsCallFrame c.frame own := by
  obtain ⟨child, u, hchild, hrest⟩ := exists_of_bind_ok h
  obtain ⟨_, u', hbound, hlast⟩ := exists_of_bind_ok hrest
  clear h hrest
  cases hchild
  cases hlast
  have hne : w.store.frames.size ≠ caller := Nat.ne_of_gt hcaller
  let entered := w.onStore fun s => (s.makeChild c.frame).2
  have hentered : entered.store.IsCallFrame c.frame w.store.frames.size :=
    .of_makeChild w.store c.frame
  have hframe := isCallFrame_bindForms m fuel hne c.params args hentered
  have hafter : worldAfter ((Evaluator.ofFuel m fuel).bindForms c.params args
      w.store.frames.size caller) entered = u' := worldAfter_of_ok hbound
  rw [hafter] at hframe
  exact ⟨rfl, hframe⟩

/-- From the frame of a call, only that frame is in reach beside what the closure and its
arguments reach. -/
theorem reaches_of_isCallFrame {s : Store} {c : Closure} {own f : FrameId}
    (hown : s.IsCallFrame c.frame own) (h : s.Reaches (own :: c.body.captured) f) :
    f = own ∨ s.Reaches ((Function.closure c).toValue.captured ++
      Value.capturedAll ((s.table .vars own).entries.map Prod.snd)) f := by
  refine h.subset (fun f => f = own ∨ s.Reaches _ f) (fun f hf => ?_)
    fun f frame g hf hframe hg => ?_
  · rcases List.mem_cons.1 hf with rfl | hf
    · exact Or.inl rfl
    · exact Or.inr (.root (List.mem_append_left _ (List.mem_cons_of_mem _ hf)))
  · rcases hf with rfl | hf
    · rcases hown.mem_links hframe hg with rfl | hg
      · exact Or.inr (.root (List.mem_append_left _ List.mem_cons_self))
      · exact Or.inr (.root (List.mem_append_right _ hg))
    · exact Or.inr (.link hf hframe hg)

/-- Runs that agree within reach, from stores that differ in one frame out of reach, differ
in that frame only. -/
theorem AgreeWithin.off {f : FrameId} {w₁ w₂ : World} (h : AgreeWithin s₁ s₂ inside w₁ w₂)
    (hsame : ∀ g, g ≠ f → s₁.frames[g]? = s₂.frames[g]?) (hout : ¬ inside f) :
    AgreeWithin s₁ s₂ (· ≠ f) w₁ w₂ where
  size_le := h.size_le
  size_eq := h.size_eq
  beside := h.beside
  frames_eq g hg := by
    by_cases hin : inside g
    · exact h.frames_eq g hin
    · rw [h.left g hin, h.right g hin, hsame g hg]
  left g hg := h.left g (not_not.1 hg ▸ hout)
  right g hg := h.right g (not_not.1 hg ▸ hout)

/-- The body of a closure, in the frame that a call has made for it, makes nothing of a
frame that was there before, if neither the closure nor its arguments reach that frame. -/
theorem agreeWithin_body (m : Machine) (fuel : Nat) {c : Closure} {own f : FrameId} {u : World}
    (hown : u.store.IsCallFrame c.frame own) (hlt : f < own)
    (hreach : ¬ u.store.Reaches ((Function.closure c).toValue.captured ++
      Value.capturedAll ((u.store.table .vars own).entries.map Prod.snd)) f)
    (s : Store) (hsize : s.frames.size = u.size)
    (hsame : ∀ g, g ≠ f → u.store.frames[g]? = s.frames[g]?) :
    outcome (evaluate m fuel c.body own) u =
        outcome (evaluate m fuel c.body own) { u with store := s } ∧
      AgreeWithin u.store s (· ≠ f) (worldAfter (evaluate m fuel c.body own) u)
        (worldAfter (evaluate m fuel c.body own) { u with store := s }) := by
  have hout : ¬ u.store.Reaches (own :: c.body.captured) f := by
    intro h
    rcases reaches_of_isCallFrame hown h with h | h
    · exact Nat.ne_of_lt hlt h
    · exact hreach h
  have hagree : ∀ g, u.store.Reaches (own :: c.body.captured) g →
      u.store.frames[g]? = s.frames[g]? := by
    intro g hg
    apply hsame
    rintro rfl
    exact hout hg
  obtain ⟨houtcome, hafter⟩ := agreeWithin_evaluate m fuel c.body own u s hsize hagree
  have houtside : ¬ u.InReach (own :: c.body.captured) f := by
    rintro (h | h)
    · exact hout h
    · exact Nat.not_le_of_lt (Nat.lt_trans hlt hown.lt_size) h
  exact ⟨houtcome, hafter.off hsame houtside⟩

/-- Stores that differ at most outside the reach of a form and its frame make no difference
to its evaluation. The body of a closure, in the frame that a call has made for it, makes
nothing of its caller's frame, if neither the closure nor its arguments reach it. -/
theorem evaluate_noninterference (m : Machine) (fuel : Nat) (w : World) :
    (∀ (form : Value) (env : FrameId) (s : Store), s.frames.size = w.size →
      (∀ f, w.store.Reaches (env :: form.captured) f → w.store.frames[f]? = s.frames[f]?) →
      outcome (evaluate m fuel form env) w =
          outcome (evaluate m fuel form env) { w with store := s } ∧
        AgreeWithin w.store s (w.InReach (env :: form.captured))
          (worldAfter (evaluate m fuel form env) w)
          (worldAfter (evaluate m fuel form env) { w with store := s })) ∧
    ∀ (c : Closure) (args : List Value) (caller : FrameId), caller < w.size →
      (Evaluator.ofFuel m fuel).apply (.closure c) args caller =
          (Evaluator.ofFuel m fuel).enterClosure c args caller >>= evaluate m fuel c.body ∧
        ∀ (own : FrameId) (u : World),
          (Evaluator.ofFuel m fuel).enterClosure c args caller w = .ok own u →
          ¬ u.store.Reaches ((Function.closure c).toValue.captured ++
            Value.capturedAll ((u.store.table .vars own).entries.map Prod.snd)) caller →
          ∀ s : Store, s.frames.size = u.size →
            (∀ f, f ≠ caller → u.store.frames[f]? = s.frames[f]?) →
            outcome (evaluate m fuel c.body own) u =
                outcome (evaluate m fuel c.body own) { u with store := s } ∧
              AgreeWithin u.store s (· ≠ caller) (worldAfter (evaluate m fuel c.body own) u)
                (worldAfter (evaluate m fuel c.body own) { u with store := s }) := by
  constructor
  · exact fun form env s => agreeWithin_evaluate m fuel form env w s
  · intro c args caller hcaller
    refine ⟨Evaluator.apply_closure _ c args caller, ?_⟩
    intro own u hentered hreach s hsize hsame
    obtain ⟨rfl, hown⟩ := isCallFrame_of_enterClosure hcaller hentered
    exact agreeWithin_body m fuel hown hcaller hreach s hsize hsame

/-- A procedure of the root frame that gives `x`. -/
def rootClosure : Closure := ⟨0, "f", [], .symbol "x", Store.root⟩

/-- The root frame with that procedure, and a frame inside it with a local `x`. -/
def localStore (x : Int) : Store :=
  ((Store.bare.set .procs Store.root "f" (.closure rootClosure)).makeChild Store.root).2.set
    .vars 1 "x" (.int x)

/-- From the root frame, the frame with the local is out of reach. -/
theorem eq_root_of_reaches {s : Store} {f : FrameId} (h : s.Reaches [Store.root] f)
    (hroot : s.frames[Store.root]? = (localStore 1).frames[Store.root]?) : f = Store.root := by
  refine h.subset (· = Store.root) (fun f hf => List.mem_singleton.1 hf) ?_
  rintro _ frame g rfl hframe hg
  rw [hroot] at hframe
  cases hframe
  exact List.mem_singleton.1 (show g ∈ [Store.root] from hg)

/-- A world with the local `x`. -/
def localWorld (x : Int) : World := { World.bare with store := localStore x }

/-- The world in which the body runs, when the procedure is called from the frame with
the local. -/
def enteredWorld (x : Int) : World :=
  worldAfter ((Evaluator.ofFuel .bare 9).enterClosure rootClosure [] 1) (localWorld x)

/-- The local makes no difference to a call from the root frame, and to the body of the
procedure when it is called from the frame of the local. -/
theorem evaluate_noninterference_local :
    (localStore 2).frames.size = (localStore 1).frames.size ∧
      (∀ f, (localStore 1).Reaches [Store.root] f →
        (localStore 1).frames[f]? = (localStore 2).frames[f]?) ∧
      outcome (evaluate .bare 9 (.list [.symbol "f"]) Store.root) (localWorld 1) =
        outcome (evaluate .bare 9 (.list [.symbol "f"]) Store.root) (localWorld 2) ∧
      (Evaluator.ofFuel .bare 9).enterClosure rootClosure [] 1 (localWorld 1) =
        .ok 2 (enteredWorld 1) ∧
      ¬ (enteredWorld 1).store.Reaches [Store.root] 1 ∧
      outcome (evaluate .bare 9 rootClosure.body 2) (enteredWorld 1) =
        outcome (evaluate .bare 9 rootClosure.body 2)
          { enteredWorld 1 with store := (enteredWorld 1).store.set .vars 1 "x" (.int 2) } := by
  have hagree : ∀ f, (localStore 1).Reaches [Store.root] f →
      (localStore 1).frames[f]? = (localStore 2).frames[f]? := by
    intro f hf
    rw [eq_root_of_reaches hf rfl]
    rfl
  have hentered : (Evaluator.ofFuel .bare 9).enterClosure rootClosure [] 1 (localWorld 1) =
      .ok 2 (enteredWorld 1) := rfl
  have hout : ¬ (enteredWorld 1).store.Reaches [Store.root] 1 := by
    intro h
    have hroot := eq_root_of_reaches h rfl
    exact absurd hroot (by decide)
  obtain ⟨hform, hbody⟩ := evaluate_noninterference .bare 9 (localWorld 1)
  have hrun := hform (.list [.symbol "f"]) Store.root (localStore 2) rfl hagree
  have hcall := (hbody rootClosure [] 1 (by decide)).2 2 (enteredWorld 1) hentered hout
    ((enteredWorld 1).store.set .vars 1 "x" (.int 2)) rfl
    fun f hf => (Store.frames_change_of_ne _ .vars _ (Ne.symm hf)).symm
  exact ⟨rfl, hagree, hrun.1, hentered, hout, hcall.1⟩

end SmallLisp
