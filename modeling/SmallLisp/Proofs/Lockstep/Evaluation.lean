import SmallLisp.Evaluator
import SmallLisp.Proofs.Lockstep

/-! # Evaluation in lockstep

Two evaluators match when their means run in lockstep. All that the evaluation of
forms builds from the means then runs in lockstep too. -/

namespace SmallLisp.Coupling

open EvalM

variable {L : Coupling} {n m : Nat} {ev₁ ev₂ : Evaluator}

/-- Evaluators whose means run in lockstep. -/
structure Matched (L : Coupling) (ev₁ ev₂ : Evaluator) : Prop where
  machine : ev₁.machine = ev₂.machine
  fuel : ev₁.fuel = ev₂.fuel
  evaluate : ∀ {n : Nat} {form : Value} {frame : FrameId}, L.AdmitsForm n form →
    L.active n frame →
    L.Lockstep n L.Admits (ev₁.evaluate form frame) (ev₂.evaluate form frame)
  perform : ∀ {n : Nat} (b : Builtin) {args : List Value} {frame : FrameId},
    (∀ form ∈ args, L.AdmitsForm n form) → L.active n frame →
    L.Lockstep n L.Admits (ev₁.perform b args frame) (ev₂.perform b args frame)

theorem Matched.withFaults {faults : HostFault → Prop} {hfaults : L.hosts → ∀ f, faults f}
    (h : L.Matched ev₁ ev₂) (hmore : ∀ f, L.faults f → faults f) :
    (L.withFaults faults hfaults).Matched ev₁ ev₂ where
  machine := h.machine
  fuel := h.fuel
  evaluate hform hframe := (h.evaluate hform hframe).withFaults hmore
  perform b _ _ hargs hframe := (h.perform b hargs hframe).withFaults hmore

/-- Forms that are within the bounds stay so while frames are made. -/
theorem forms_mono {forms : List Value} (hnm : n ≤ m) (h : ∀ form ∈ forms, L.AdmitsForm n form) :
    ∀ form ∈ forms, L.AdmitsForm m form :=
  fun form hf => (h form hf).mono hnm

theorem values_mono {vs : List Value} (hnm : n ≤ m) (h : ∀ v ∈ vs, L.Admits n v) :
    ∀ v ∈ vs, L.Admits m v :=
  fun v hv => (h v hv).mono hnm

namespace Lockstep

theorem unwrap {x y : EvalM Value} (h : L.Lockstep n L.Admits x y) :
    L.Lockstep n L.Admits (do let v ← x; Pure.pure v.unwrap) (do let v ← y; Pure.pure v.unwrap) :=
  bind h fun _ _ _ hv => pure hv.unwrap

theorem bindValues {own : FrameId} : ∀ {names : List String} {vs : List Value},
    L.active n own → (∀ v ∈ vs, L.Admits n v) →
    L.Lockstep n (fun _ _ => True) (Evaluator.bindValues names vs own)
      (Evaluator.bindValues names vs own) := by
  intro names vs
  induction names generalizing vs n with
  | nil => exact fun _ _ => Lockstep.pure trivial
  | cons name names ih =>
    cases vs with
    | nil => exact fun _ _ => Lockstep.pure trivial
    | cons v vs =>
      intro hown hvs
      refine (setVariable hown (hvs v List.mem_cons_self)).bind fun _ m hm _ => ?_
      exact ih (L.active_mono hm hown)
        (values_mono hm fun u hu => hvs u (List.mem_cons_of_mem v hu))

/-- The symbols that stand for held values are forms of their own. -/
theorem holdValues {own : FrameId} : ∀ {i : Nat} {vs : List Value},
    L.active n own → (∀ v ∈ vs, L.Admits n v) →
    L.Lockstep n (fun m forms => ∀ form ∈ forms, L.AdmitsForm m form)
      (Evaluator.holdValues i vs own) (Evaluator.holdValues i vs own) := by
  intro i vs
  induction vs generalizing i n with
  | nil => exact fun _ _ => Lockstep.pure fun _ hf => absurd hf List.not_mem_nil
  | cons v vs ih =>
    intro hown hvs
    refine (setVariable hown (hvs v List.mem_cons_self)).bind fun _ m hm _ => ?_
    have hrest := values_mono hm fun u hu => hvs u (List.mem_cons_of_mem v hu)
    refine (ih (L.active_mono hm hown) hrest).bind fun forms k hk hforms => ?_
    exact Lockstep.pure (List.forall_mem_cons.2 ⟨Bounds.admitsForm_symbol _, hforms⟩)

/-- A native procedure needs a frame to run in: its caller's, or one around a fresh one. -/
theorem applyNative {p : Function} {args : List Value} {frame : FrameId}
    {body₁ body₂ : FrameId → EvalM Value} (hcaptured : L.captured n frame)
    (hactive : p.inCallerFrame = true → L.active n frame)
    (hbody : ∀ own m, n ≤ m → L.active m own → L.Lockstep m L.Admits (body₁ own) (body₂ own)) :
    L.Lockstep n L.Admits (Evaluator.applyNative p args frame body₁)
      (Evaluator.applyNative p args frame body₂) := by
  have hnoted : ∀ own m, n ≤ m → L.active m own →
      L.Lockstep m L.Admits (do EvalM.note (.nativeCalled p.name args.length); body₁ own)
        (do EvalM.note (.nativeCalled p.name args.length); body₂ own) := by
    intro own m hm hown
    refine (note _).bind fun _ k hk _ => ?_
    exact hbody own k (Nat.le_trans hm hk) (L.active_mono hk hown)
  exact choose hactive (makeChild hcaptured) hnoted

/-- A call is an application with two notes around it. -/
theorem call {p : Function} {args : List Value} {frame : FrameId}
    (happly : ∀ m, n ≤ m →
      L.Lockstep m L.Admits (ev₁.apply p args frame) (ev₂.apply p args frame)) :
    L.Lockstep n L.Admits (ev₁.call p args frame) (ev₂.call p args frame) := by
  refine (note _).bind fun _ m hm _ => ?_
  refine (happly m hm).bind fun v k hk hv => ?_
  refine (note _).bind fun _ l hl _ => ?_
  exact pure (hv.mono hl).unwrap

end Lockstep

namespace Matched

variable (h : L.Matched ev₁ ev₂)
include h

theorem evaluateAll {frame : FrameId} : ∀ {forms : List Value} {n : Nat},
    (∀ form ∈ forms, L.AdmitsForm n form) → L.active n frame →
    L.Lockstep n (fun m vs => ∀ v ∈ vs, L.Admits m v) (ev₁.evaluateAll forms frame)
      (ev₂.evaluateAll forms frame) := by
  intro forms
  induction forms with
  | nil => exact fun _ _ => .pure fun _ hv => absurd hv List.not_mem_nil
  | cons form forms ih =>
    intro n hforms hframe
    rw [List.forall_mem_cons] at hforms
    refine (h.evaluate hforms.1 hframe).bind fun v m hm hv => ?_
    refine (ih (forms_mono hm hforms.2) (L.active_mono hm hframe)).bind fun vs k hk hvs => ?_
    exact .pure (List.forall_mem_cons.2 ⟨hv.mono hk, hvs⟩)

theorem performHost {p : HostProcedure} {args : List Value} {frame : FrameId} (hp : L.hosts)
    (hargs : ∀ form ∈ args, L.AdmitsForm n form) (hframe : L.active n frame) :
    L.Lockstep n L.Admits (ev₁.performHost p args frame) (ev₂.performHost p args frame) := by
  unfold Evaluator.performHost
  split
  · exact .pure Bounds.admits_nil
  · exact .pure (Bounds.admits_int.2 (L.int_of_hosts hp _))
  · exact .pure (Bounds.admits_list.2 fun form hf => .of_hosts hp (hargs form hf))
  · refine (h.evaluateAll hargs hframe).bind fun vs m hm hvs => ?_
    exact .pure (Bounds.admits_list.2 hvs)
  · exact .stop (s := .fault _) (L.faults_of_hosts hp _)
  · exact .pure (.of_hosts hp (hargs _ List.mem_cons_self))
  · refine (h.evaluate (hargs _ List.mem_cons_self) hframe).bind fun v m hm hv => ?_
    exact h.evaluate hv.1 (L.active_mono hm hframe)
  · exact .stop (s := .fault _) (L.faults_of_hosts hp _)
  · have hform := hargs _ (List.mem_cons_of_mem _ List.mem_cons_self)
    refine (h.evaluate hform hframe).bind fun v m hm hv => ?_
    refine (Lockstep.setVariable (L.active_mono hm hframe) hv).bind fun _ k hk _ => ?_
    exact .pure Bounds.admits_nil
  · exact .stop (s := .fault _) (L.faults_of_hosts hp _)

theorem bindForms {own caller : FrameId} : ∀ {names : List String} {forms : List Value} {n : Nat},
    (∀ form ∈ forms, L.AdmitsForm n form) → L.active n own → L.active n caller →
    L.Lockstep n (fun _ _ => True) (ev₁.bindForms names forms own caller)
      (ev₂.bindForms names forms own caller) := by
  intro names
  induction names with
  | nil => exact fun _ _ _ => .pure trivial
  | cons name names ih =>
    intro forms n hforms hown hcaller
    cases forms with
    | nil => exact .pure trivial
    | cons form forms =>
      rw [List.forall_mem_cons] at hforms
      refine (h.evaluate hforms.1 hcaller).bind fun v m hm hv => ?_
      refine (Lockstep.setVariable (L.active_mono hm hown) hv).bind fun _ k hk _ => ?_
      have hmk := Nat.le_trans hm hk
      exact ih (forms_mono hmk hforms.2) (L.active_mono hmk hown) (L.active_mono hmk hcaller)

/-- The application of a built-in procedure that has a frame of its own does not need its
caller's frame for evaluations. -/
theorem applyBuiltin {b : Builtin} {args : List Value} {frame : FrameId}
    (hargs : ∀ form ∈ args, L.AdmitsForm n form) (hcaptured : L.captured n frame)
    (hactive : b.inCallerFrame = true → L.active n frame) :
    L.Lockstep n L.Admits (ev₁.apply (.builtin b) args frame)
      (ev₂.apply (.builtin b) args frame) :=
  .applyNative hcaptured hactive fun _ _ hm hown => h.perform b (forms_mono hm hargs) hown

theorem apply {p : Function} {args : List Value} {frame : FrameId} (hp : L.Admits n p.toValue)
    (hargs : ∀ form ∈ args, L.AdmitsForm n form) (hframe : L.active n frame) :
    L.Lockstep n L.Admits (ev₁.apply p args frame) (ev₂.apply p args frame) := by
  have hcaptured := L.captured_of_active hframe
  cases p with
  | builtin b => exact h.applyBuiltin hargs hcaptured fun _ => hframe
  | host p =>
    refine .applyNative hcaptured (fun _ => hframe) fun own m hm hown => ?_
    exact h.performHost (Bounds.admits_host.1 hp) (forms_mono hm hargs) hown
  | closure c =>
    obtain ⟨hbody, hc⟩ := Bounds.admits_closure.1 hp
    refine (Lockstep.makeChild hc).bind fun own m hm hown => ?_
    refine (h.bindForms (forms_mono hm hargs) hown (L.active_mono hm hframe)).bind
      fun _ k hk _ => ?_
    refine (Lockstep.note _).bind fun _ l hl _ => ?_
    have hkl := Nat.le_trans hk hl
    exact h.evaluate (hbody.mono (Nat.le_trans hm hkl)) (L.active_mono hkl hown)

theorem call {p : Function} {args : List Value} {frame : FrameId} (hp : L.Admits n p.toValue)
    (hargs : ∀ form ∈ args, L.AdmitsForm n form) (hframe : L.active n frame) :
    L.Lockstep n L.Admits (ev₁.call p args frame) (ev₂.call p args frame) :=
  Lockstep.call fun _ hm => h.apply (hp.mono hm) (forms_mono hm hargs) (L.active_mono hm hframe)

theorem applyValues {p : Function} {values : List Value} {frame : FrameId}
    (hp : L.Admits n p.toValue) (hvalues : ∀ v ∈ values, L.Admits n v)
    (hframe : L.captured n frame) :
    L.Lockstep n L.Admits (ev₁.applyValues p values frame) (ev₂.applyValues p values frame) := by
  cases p with
  | closure c =>
    obtain ⟨hbody, hc⟩ := Bounds.admits_closure.1 hp
    refine (Lockstep.makeChild hc).bind fun own m hm hown => ?_
    refine (Lockstep.bindValues hown (values_mono hm hvalues)).bind fun _ k hk _ => ?_
    exact h.evaluate (hbody.mono (Nat.le_trans hm hk)) (L.active_mono hk hown)
  | builtin b =>
    refine (Lockstep.makeChild hframe).bind fun holder m hm hholder => ?_
    refine (Lockstep.holdValues hholder (values_mono hm hvalues)).bind fun forms k hk hforms => ?_
    have hactive := L.active_mono hk hholder
    refine .applyNative (L.captured_of_active hactive) (fun _ => hactive) fun own l hl hown => ?_
    exact h.perform b (forms_mono hl hforms) hown
  | host p =>
    refine (Lockstep.makeChild hframe).bind fun holder m hm hholder => ?_
    refine (Lockstep.holdValues hholder (values_mono hm hvalues)).bind fun forms k hk hforms => ?_
    have hactive := L.active_mono hk hholder
    refine .applyNative (L.captured_of_active hactive) (fun _ => hactive) fun own l hl hown => ?_
    exact h.performHost (Bounds.admits_host.1 hp) (forms_mono hl hforms) hown

theorem callValues {p : Function} {values : List Value} {frame : FrameId}
    (hp : L.Admits n p.toValue) (hvalues : ∀ v ∈ values, L.Admits n v)
    (hframe : L.captured n frame) :
    L.Lockstep n L.Admits (ev₁.callValues p values frame) (ev₂.callValues p values frame) :=
  Lockstep.unwrap (h.applyValues hp hvalues hframe)

theorem callNamed {name : String} {args : List Value} {frame : FrameId}
    (hargs : ∀ form ∈ args, L.AdmitsForm n form) (hframe : L.active n frame) :
    L.Lockstep n L.Admits (ev₁.callNamed name args frame) (ev₂.callNamed name args frame) := by
  refine (Lockstep.functionOf name (L.captured_of_active hframe)).bind fun p m hm hp => ?_
  exact h.call hp (forms_mono hm hargs) (L.active_mono hm hframe)

theorem evaluateLast {frame : FrameId} : ∀ {forms : List Value} {v : Value} {n : Nat},
    L.Admits n v → (∀ form ∈ forms, L.AdmitsForm n form) → L.active n frame →
    L.Lockstep n L.Admits (ev₁.evaluateLast v forms frame) (ev₂.evaluateLast v forms frame) := by
  intro forms
  induction forms with
  | nil => exact fun hv _ _ => .pure hv
  | cons form forms ih =>
    intro v n _ hforms hframe
    rw [List.forall_mem_cons] at hforms
    refine (h.evaluate hforms.1 hframe).bind fun u m hm hu => ?_
    exact ih hu (forms_mono hm hforms.2) (L.active_mono hm hframe)

theorem evaluateBlock {v : Value} {rest : List Value} {frame : FrameId} (hv : L.Admits n v)
    (hrest : ∀ form ∈ rest, L.AdmitsForm n form) (hframe : L.active n frame) :
    L.Lockstep n L.Admits (ev₁.evaluateBlock v rest frame) (ev₂.evaluateBlock v rest frame) :=
  Lockstep.unwrap (h.evaluateLast hv hrest hframe)

theorem evaluateList {items : List Value} {frame : FrameId}
    (hitems : ∀ form ∈ items, L.AdmitsForm n form) (hframe : L.active n frame) :
    L.Lockstep n L.Admits (ev₁.evaluateList items frame) (ev₂.evaluateList items frame) := by
  unfold Evaluator.evaluateList
  split
  · exact .pure Bounds.admits_nil
  · exact h.callNamed (List.forall_mem_cons.1 hitems).2 hframe
  · rw [List.forall_mem_cons] at hitems
    refine (h.evaluate hitems.1 hframe).bind fun first m hm hfirst => ?_
    have hrest := forms_mono hm hitems.2
    have hactive := L.active_mono hm hframe
    split
    · next p hp =>
      split
      · exact h.evaluateBlock hfirst hrest hactive
      · rw [← Value.toValue_of_function? hp] at hfirst
        exact h.call hfirst hrest hactive
    · exact h.evaluateBlock hfirst hrest hactive
  · next first rest hsymbol hlist =>
    split
    · next p hp =>
      rw [List.forall_mem_cons] at hitems
      have hvalue := Bounds.Admits.of_form hitems.1 hlist hsymbol
      rw [← Value.toValue_of_function? hp] at hvalue
      exact h.call hvalue hitems.2 hframe
    · refine (h.evaluateAll hitems hframe).bind fun vs m hm hvs => ?_
      exact .pure (Bounds.admits_list.2 hvs)

theorem evaluateForm {form : Value} {frame : FrameId} (hform : L.AdmitsForm n form)
    (hframe : L.active n frame) :
    L.Lockstep n L.Admits (ev₁.evaluateForm form frame) (ev₂.evaluateForm form frame) := by
  unfold Evaluator.evaluateForm
  split
  · exact h.evaluateList (Bounds.admitsForm_list.1 hform) hframe
  · exact .valueOf _ (L.captured_of_active hframe)
  · next hlist hsymbol =>
    have hvalue := Bounds.Admits.of_form hform hlist hsymbol
    split
    · next p hp =>
      rw [← Value.toValue_of_function? hp] at hvalue
      exact h.call hvalue (fun _ hf => absurd hf List.not_mem_nil) hframe
    · exact .pure hvalue

/-- The forms of a source are marked one by one. -/
theorem evaluateForms {frame : FrameId} : ∀ {forms : List Value} {v : Value} {n : Nat},
    L.Admits n v → (∀ form ∈ forms, L.AdmitsForm n form) → L.active n frame →
    L.Lockstep n L.Admits (ev₁.evaluateForms v forms frame)
      (ev₂.evaluateForms v forms frame) := by
  intro forms
  induction forms with
  | nil => exact fun hv _ _ => .pure hv
  | cons form forms ih =>
    intro v n _ hforms hframe
    rw [List.forall_mem_cons] at hforms
    refine (Lockstep.marked hforms.1.mark).bind fun form m hm hform => ?_
    refine (h.evaluate hform (L.active_mono hm hframe)).bind fun u k hk hu => ?_
    have hmk := Nat.le_trans hm hk
    exact ih hu (forms_mono hmk hforms.2) (L.active_mono hmk hframe)

end Matched

end SmallLisp.Coupling
