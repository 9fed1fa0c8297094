import SmallLisp.Proofs.Changes
import SmallLisp.Proofs.NonInterference

/-! # Named functions

A function form with a name makes a closure and defines it in the frame of the form. From
then on the name calls that closure wherever its frame is the first on the way outward that
defines the name, until the frame defines the name anew. Variables of the name do not
matter, and the body of the closure is such a place. -/

namespace SmallLisp

open EvalM

/-! ## Making a closure -/

theorem EvalM.eq_ok_of_ofExcept {α : Type} {x : Except ScriptError α} {w u : World} {a : α}
    (h : ofExcept x w = .ok a u) : x = .ok a ∧ u = w := by
  cases x with
  | ok b =>
    cases h
    exact ⟨rfl, rfl⟩
  | error e => cases h

/-- The closure is the value, and is defined under its name in the frame. -/
structure DefinesClosure (name : String) (env : FrameId) (v : Value) (w u : World) (c : Closure) :
    Prop where
  value : v = (Function.closure c).toValue
  named : c.name = name
  captured : c.frame = env
  defined : u.store = w.store.set .procs env name (.closure c)

theorem DefinesClosure.size_eq {name : String} {env : FrameId} {v : Value} {w u : World}
    {c : Closure} (h : DefinesClosure name env v w u c) : u.size = w.size := by
  rw [World.size, h.defined, Store.set, Store.size_change]

variable {m : Machine} {fuel : Nat} {name : String} {first body v : Value} {params : List Value}
  {env : FrameId} {w u : World}

theorem exists_of_makeClosure {names : List String} (hname : name ≠ anonymous)
    (h : makeClosure name names body env w = .ok v u) :
    ∃ c, DefinesClosure name env v w u c ∧ c.params = names ∧ c.body = body := by
  obtain ⟨id, w₁, hid, hrest⟩ := exists_of_bind_ok h
  cases hid
  rw [if_neg hname] at hrest
  cases hrest
  exact ⟨_, ⟨rfl, rfl, rfl, rfl⟩, rfl, rfl⟩

/-- A function form with a name that gives a value has names for parameters. -/
theorem exists_of_makeFunction (hfirst : first = .symbol name ∨ first = .string name)
    (hname : name ≠ anonymous) (h : makeFunction [first, .list params, body] env w = .ok v u) :
    ∃ c, DefinesClosure name env v w u c ∧ namesOf "Parameter" params = .ok c.params ∧
      c.body = body := by
  have hforms : functionForms name 3 3 [.list params, body] env w = .ok v u := by
    rcases hfirst with rfl | rfl <;> exact h
  obtain ⟨names, w₁, hnames, hmake⟩ := exists_of_bind_ok hforms
  obtain ⟨hread, rfl⟩ := eq_ok_of_ofExcept hnames
  obtain ⟨c, hc, rfl, hbody⟩ := exists_of_makeClosure hname hmake
  exact ⟨c, hc, hread, hbody⟩

/-- A call of a built-in procedure in the frame of its caller adds only notes. -/
theorem exists_of_call_inCallerFrame {ev : Evaluator} {b : Builtin} {args : List Value}
    (hb : b.inCallerFrame = true) (h : ev.call (.builtin b) args env w = .ok v u) :
    ∃ x w' u', ev.perform b args env w' = .ok x u' ∧ v = x.unwrap ∧ w'.store = w.store ∧
      u.store = u'.store := by
  obtain ⟨_, w₁, hstarted, happlied⟩ := exists_of_bind_ok h
  cases hstarted
  obtain ⟨x, u', happly, hrest⟩ := exists_of_bind_ok happlied
  cases hrest
  change Evaluator.applyNative (.builtin b) args env (ev.perform b args) _ = .ok x u' at happly
  have hin : (Function.builtin b).inCallerFrame = true := hb
  unfold Evaluator.applyNative at happly
  dsimp only at happly
  rw [if_pos hin] at happly
  obtain ⟨own, w₂, hown, hnoted⟩ := exists_of_bind_ok happly
  cases hown
  obtain ⟨_, w₃, hnote, hperform⟩ := exists_of_bind_ok hnoted
  cases hnote
  exact ⟨x, _, u', hperform, rfl, rfl, rfl⟩

/-- The form `(fn name (params) body)`. -/
def functionForm (first : Value) (params : List Value) (body : Value) : Value :=
  .list [.symbol "fn", first, .list params, body]

theorem exists_of_evaluate_functionForm
    (hfn : w.store.function? env "fn" = some (.builtin .function))
    (hfirst : first = .symbol name ∨ first = .string name) (hname : name ≠ anonymous)
    (h : evaluate m fuel (functionForm first params body) env w = .ok v u) :
    ∃ c, DefinesClosure name env v w u c ∧ namesOf "Parameter" params = .ok c.params ∧
      c.body = body := by
  -- One unit of fuel is for the form, and one for the built-in procedure.
  cases fuel with
  | zero => cases h
  | succ fuel =>
    change (Evaluator.ofFuel m fuel).callNamed "fn" [first, .list params, body] env w = _ at h
    rw [Evaluator.callNamed_of_function? hfn] at h
    obtain ⟨x, w', u', hperform, rfl, hw', hu'⟩ := exists_of_call_inCallerFrame rfl h
    cases fuel with
    | zero => cases hperform
    | succ fuel =>
      change makeFunction [first, .list params, body] env w' = .ok x u' at hperform
      obtain ⟨c, ⟨rfl, hnamed, hcaptured, hdefined⟩, hforms⟩ :=
        exists_of_makeFunction hfirst hname hperform
      refine ⟨c, ⟨rfl, hnamed, hcaptured, ?_⟩, hforms⟩
      rw [hu', hdefined, hw']

/-! ## Calling it -/

/-- From the frame, the name stands for the closure in front of arguments, and a call of
the name is the call of the closure on the same argument forms. -/
structure World.Calls (w : World) (g : FrameId) (name : String) (c : Closure) : Prop where
  function : functionOf g name w = .ok (.closure c) w
  call : ∀ (m : Machine) (fuel : Nat) (args : List Value),
    evaluate m (fuel + 1) (.list (.symbol name :: args)) g w =
      (Evaluator.ofFuel m fuel).call (.closure c) args g w

variable {c : Closure} {g own : FrameId} {t : World}

/-- Whatever variables there are, a name calls the nearest procedure. -/
theorem World.calls_of_sees (h : w.store.Sees .procs g name (.closure c)) : w.Calls g name c := by
  have hfunction : w.store.function? g name = some (.closure c) := by
    rw [Store.function?, Store.sees_iff.1 h]
  exact ⟨(w.resolves g name).procedure_function _ h,
    fun m fuel args => Evaluator.callNamed_of_function? hfunction⟩

/-- No frame that is nearer defines the procedure. -/
theorem World.calls_of_chain {inner outer : List FrameId}
    (hdefined : (w.store.table .procs env).get? name = some (.closure c))
    (hsplit : w.store.chain g = inner ++ env :: outer)
    (hinner : ∀ h ∈ inner, ¬ w.store.Binds .procs name h) : w.Calls g name c :=
  calls_of_sees ⟨env, ⟨inner, outer, hsplit, ⟨_, hdefined⟩, hinner⟩, hdefined⟩

namespace Store

variable {s : Store}

theorem lt_size_of_function? {f : FrameId} {p : Function} (h : s.function? f name = some p) :
    f < s.frames.size := by
  refine lt_size_of_chain_ne_nil fun hnil => ?_
  simp only [function?, get?, hnil, List.findSome?_nil, Option.bind_none, reduceCtorEq] at h

theorem exists_chain_self (henv : env < s.frames.size) : ∃ outer, s.chain env = env :: outer :=
  ⟨_, chain_of_some (Array.getElem?_eq_getElem henv)⟩

/-- The chain from a frame that lies in an older one. -/
theorem chain_inside (houter : s.frames[own]?.map Frame.outer = some (some env))
    (hlt : env < own) : s.chain own = own :: s.chain env := by
  obtain ⟨frame, hframe, hsome⟩ := Option.map_eq_some_iff.1 houter
  rw [chain_of_some hframe, hsome]
  dsimp only
  rw [if_pos hlt]

theorem IsCallFrame.outer_eq (h : s.IsCallFrame env own) :
    s.frames[own]?.map Frame.outer = some (some env) := by
  obtain ⟨keys, hkeys⟩ := h
  obtain ⟨frame, hframe, houtline⟩ := Option.map_eq_some_iff.1 hkeys
  rw [hframe, Option.map_some]
  exact congrArg some (Prod.mk.inj houtline).1

theorem IsCallFrame.procedure_eq_none (h : s.IsCallFrame env own) (name : String) :
    (s.table .procs own).get? name = none := by
  obtain ⟨keys, hkeys⟩ := h
  obtain ⟨frame, hframe, houtline⟩ := Option.map_eq_some_iff.1 hkeys
  have hprocs : frame.procs = .empty := (Prod.mk.inj (Prod.mk.inj houtline).2).2
  rw [table_eq, hframe]
  exact (congrArg (Table.get? · name) hprocs).trans (Table.get?_empty name)

end Store

/-- In the body of a closure, its name calls it until the body's frame defines the name. -/
theorem World.calls_in_body {r : World} (henv : env < w.size) (hown : env < own)
    (hframe : w.store.IsCallFrame env own)
    (hdefined : (w.store.table .procs env).get? name = some (.closure c))
    (h : w.Evolves (fun change => change.Spares env name ∧ change.Spares own name) r) :
    r.Calls own name c := by
  have hlt := hframe.lt_size
  have hlater := (h.procedure_eq (fun _ hspares => hspares.1) henv).trans hdefined
  have hnone := (h.procedure_eq (fun _ hspares => hspares.2) hlt).trans
    (hframe.procedure_eq_none name)
  obtain ⟨outer, hchain⟩ := Store.exists_chain_self (henv.trans_le h.size_le)
  have hsplit : r.store.chain own = [own] ++ env :: outer := by
    rw [Store.chain_inside ((h.outer_eq hlt).trans hframe.outer_eq) hown, hchain]
    rfl
  refine calls_of_chain hlater hsplit ?_
  rw [List.forall_mem_singleton]
  exact Store.not_binds_iff.2 hnone

/-- Where `fn` is the built-in procedure, let a function form give a value whose name is not
that of anonymous functions. The value is a closure with the name, the parameters and the
body of the form, and with its frame. Until this frame defines the name anew, the name calls
the closure from the frame itself, from every frame that leads to it past no other procedure
of the name, and, whenever a call of the closure has started, from the frame of its body until
that frame defines the name. Every run makes only changes of the kinds that are meant here. -/
theorem named_function_callable
    (hfn : w.store.function? env "fn" = some (.builtin .function))
    (hfirst : first = .symbol name ∨ first = .string name) (hname : name ≠ anonymous)
    (hrun : evaluate m fuel (functionForm first params body) env w = .ok v u) :
    ∃ c, DefinesClosure name env v w u c ∧ namesOf "Parameter" params = .ok c.params ∧
      c.body = body ∧
      ∀ t, u.Evolves (·.Spares env name) t →
        t.Calls env name c ∧
        (∀ g inner outer, t.store.chain g = inner ++ env :: outer →
          (∀ h ∈ inner, ¬ t.store.Binds .procs name h) → t.Calls g name c) ∧
        (∀ m fuel args caller own r, caller < t.size →
          (Evaluator.ofFuel m fuel).enterClosure c args caller t = .ok own r →
          t.Evolves (·.Spares env name) r →
          ∀ r', r.Evolves (fun change => change.Spares env name ∧ change.Spares own name) r' →
            r'.Calls own name c) ∧
        ∀ (task : Task) (m : Machine) (fuel : Nat) (g : FrameId),
          t.Evolves (fun _ => True) (worldAfter (task.run (.ofFuel m fuel) g) t) := by
  obtain ⟨c, hc, hparams, hbody⟩ := exists_of_evaluate_functionForm hfn hfirst hname hrun
  have henv := Store.lt_size_of_function? hfn
  have hsize : env < u.size := henv.trans_eq hc.size_eq.symm
  have hdefined : (u.store.table .procs env).get? name = some (.closure c) := by
    rw [hc.defined, Store.table_set_procs name henv, Table.get?_set, if_pos rfl]
  refine ⟨c, hc, hparams, hbody, fun t ht => ?_⟩
  have hsizet := hsize.trans_le ht.size_le
  have hdefinedt := (ht.procedure_eq (fun _ hspares => hspares) hsize).trans hdefined
  refine ⟨?own, ?nearby, ?body, ?runs⟩
  case own =>
    obtain ⟨outer, hchain⟩ := Store.exists_chain_self hsizet
    have hsplit : t.store.chain env = [] ++ env :: outer := hchain
    exact World.calls_of_chain hdefinedt hsplit fun h hh => absurd hh List.not_mem_nil
  case nearby => exact fun g inner outer => World.calls_of_chain hdefinedt
  case body =>
    intro m fuel args caller own r hcaller henter hr r' hr'
    obtain ⟨rfl, hframe⟩ := isCallFrame_of_enterClosure hcaller henter
    rw [hc.captured] at hframe
    have hdefinedr := (hr.procedure_eq (fun _ hspares => hspares) hsizet).trans hdefinedt
    exact World.calls_in_body (hsizet.trans_le hr.size_le) hsizet hframe hdefinedr hr'
  case runs => exact fun task m fuel g => task.evolves_run m fuel g t

/-- In a new session, `(fn loop () (loop))` makes a function that can be called, and that
calls itself from the frame of its body. -/
theorem named_function_callable_loop :
    let w := World.fresh ⟨[], false⟩
    let form := functionForm (.symbol "loop") [] (.list [.symbol "loop"])
    w.store.function? Store.root "fn" = some (.builtin .function) ∧ "loop" ≠ anonymous ∧
      ∃ v u c, evaluate .bare 2 form Store.root w = .ok v u ∧ u.Calls Store.root "loop" c ∧
        ∃ own r, (Evaluator.ofFuel .bare 1).enterClosure c [] Store.root u = .ok own r ∧
          r.Calls own "loop" c := by
  intro w form
  have hfn : w.store.function? Store.root "fn" = some (.builtin .function) :=
    World.function?_fresh ⟨[], false⟩ .function
  have hname : "loop" ≠ anonymous := by decide
  have hgives : Gives (evaluate .bare 2 form Store.root) w.store fun _ _ => True :=
    Gives.evaluate_inCallerFrame rfl hfn (Gives.makeFunction_named hname fun _ => trivial)
  obtain ⟨v, u, hrun, -⟩ := hgives w rfl
  obtain ⟨c, hc, -, -, hcalls⟩ := named_function_callable hfn (.inl rfl) hname hrun
  obtain ⟨hown, -, hbody, -⟩ := hcalls u (.refl u)
  have hroot : Store.root < u.size :=
    (Store.lt_size_of_function? hfn).trans_eq hc.size_eq.symm
  let entered := (Change.child c.frame).apply u
  let noted := (Change.aside (.record (.noted (.closureCalled c.name c.params)))).apply entered
  have henter : (Evaluator.ofFuel .bare 1).enterClosure c [] Store.root u = .ok u.size noted := by
    have hbind : ∀ own,
        (Evaluator.ofFuel .bare 1).bindForms c.params [] own Store.root = pure () := by
      cases c.params <;> exact fun _ => rfl
    simp only [Evaluator.enterClosure, hbind]
    rfl
  have hevolves : u.Evolves (·.Spares Store.root "loop") noted := by
    have hspares : (Change.child c.frame).Spares Store.root "loop" := fun p hp => by cases hp
    refine ((World.Evolves.refl u).step _ hspares).step _ fun p hp => ?_
    cases hp
  exact ⟨hfn, hname, v, u, c, hrun, hown, _, _, henter,
    hbody .bare 1 [] Store.root _ _ hroot henter hevolves _ (.refl _)⟩

/-- A function that is given the name of anonymous functions cannot be called by it. -/
theorem named_function_callable_anonymous :
    let w := World.fresh ⟨[], false⟩
    let form := functionForm (.symbol anonymous) [.symbol "x"] (.symbol "x")
    ∃ v u, evaluate .bare 2 form Store.root w = .ok v u ∧
      functionOf Store.root anonymous u = .error (.error (.noFunction anonymous)) u := by
  intro w form
  have hfn : w.store.function? Store.root "fn" = some (.builtin .function) :=
    World.function?_fresh ⟨[], false⟩ .function
  have hgives : Gives (evaluate .bare 2 form Store.root) w.store fun _ t => t = w.store := by
    apply Gives.evaluate_inCallerFrame rfl hfn
    apply Gives.bind
    apply Gives.pure
    apply Gives.bind
    apply Gives.pure
    apply Gives.bind
    apply Gives.freshId
    intro id
    exact Gives.pure rfl
  obtain ⟨v, u, hrun, hstore⟩ := hgives w rfl
  refine ⟨v, u, hrun, ?_⟩
  have hnone : u.store.function? Store.root anonymous = none := by
    obtain ⟨hvars, -, hprocs⟩ := World.tables_fresh ⟨[], false⟩
    have hbuiltin : ∀ b : Builtin, b.name ≠ anonymous := by
      have hall : ∀ b ∈ Builtin.all, b.name ≠ anonymous := by decide
      exact fun b => hall b (Builtin.mem_all b)
    rw [hstore, Store.function?, Store.get?_root, Store.get?_root, hprocs _ hbuiltin, hvars]
    rfl
  rw [functionOf_eq, hnone]

end SmallLisp
