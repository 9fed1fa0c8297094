import SmallLisp.Proofs.Execution
import SmallLisp.Proofs.HostFaults
import SmallLisp.Proofs.Lockstep.Bounded
import SmallLisp.Proofs.Reading.Grammar

/-! # Hazards

A built-in procedure fails outside the language only where it meets a hazard: arguments
whose values it can neither take nor refuse. Where no procedure meets one, an evaluation
has no other such failure than an interruption of the input. -/

namespace SmallLisp

open EvalM Number

namespace EvalM

variable {α β : Type} {x : EvalM α} {w u : World} {s : Stop}

theorem exists_of_bind_error {f : α → EvalM β} (h : (x >>= f) w = .error s u) :
    x w = .error s u ∨ ∃ a v, x w = .ok a v ∧ f a v = .error s u := by
  simp only [bind, EStateM.bind] at h
  cases hx : x w with
  | ok a v =>
    rw [hx] at h
    exact .inr ⟨a, v, rfl, h⟩
  | error s' u' =>
    rw [hx] at h
    cases h
    exact .inl rfl

/-- A choice between a value at hand and a computation stops with what goes on after it, or
with the computation. -/
theorem exists_of_choose_error {c : Prop} [Decidable c] {a : α} {f : α → EvalM β}
    (h : (if c then pure a >>= f else x >>= f) w = .error s u) :
    c ∧ f a w = .error s u ∨
      ¬ c ∧ (x w = .error s u ∨ ∃ a v, x w = .ok a v ∧ f a v = .error s u) := by
  split at h
  · next hc => exact .inl ⟨hc, h⟩
  · next hc => exact .inr ⟨hc, exists_of_bind_error h⟩

/-- What fails outside the language passes the check before it. -/
theorem of_unless_fails {c : Prop} [Decidable c] {e : ScriptError} {f : HostFault}
    (h : (if c then fail e else x) w = .error (.fault f) u) :
    ¬ c ∧ x w = .error (.fault f) u := by
  split at h
  · cases h
  · next hc => exact ⟨hc, h⟩

theorem ofOutcome_eq_error {o : Except Stop α} (h : ofOutcome o w = .error s u) :
    o = .error s := by
  cases o <;> cases h
  rfl

theorem ofOutcome_eq_ok {o : Except Stop α} {a : α} (h : ofOutcome o w = .ok a u) :
    o = .ok a ∧ u = w := by
  cases o <;> cases h
  exact ⟨rfl, rfl⟩

theorem outcome_of_error (h : x w = .error s u) : outcome x w = .error s := by
  rw [outcome, h]

end EvalM

theorem Reading.exceedsDigitLimit_of_read {source : String} {f : HostFault}
    (h : read source = .error (.fault f)) :
    ∃ token ∈ tokens source.toList, exceedsDigitLimit token = true := by
  rcases kind_of_fault (readTokens_eq_error_iff.1 h) with ⟨e, he, -⟩ | ⟨token, htoken, hread⟩
  · cases he
  · exact ⟨token, htoken, (readInteger_eq_error_iff.1 hread).1⟩

/-! ## Hazards of built-in procedures -/

namespace Builtin

/-- How many of its arguments a procedure converts to integers, each before it evaluates the
next. -/
def integers : Builtin → Nat
  | convert .int | charOfCode | exit => 1
  | random => 2
  | sequence => 3
  | _ => 0

/-- What a procedure can neither take nor refuse: the values of its first arguments, when
`left` of them are yet to be evaluated. -/
inductive Hazard (m : Machine) (imports : Option ImportState) : Nat → Builtin → List Value → Prop
  | operands {op : Arithmetic} {vs : List Value} (h : op.Hazard vs) :
      Hazard m imports 0 (arithmetic op) vs
  /-- An integer is written with too many digits. -/
  | overlong {left : Nat} {b : Builtin} {vs : List Value} {v : Value}
      (hlt : vs.length < b.integers) (hbefore : ∀ u ∈ vs, ∃ n, u.toInt = .ok n)
      (hlong : v.isOverlong = true) : Hazard m imports left b (vs ++ [v])
  /-- An integer past all floats is converted to a float. -/
  | huge {left : Nat} {v : Value} (hhuge : v.isHuge = true) :
      Hazard m imports left (convert .float) [v]
  | surrogate {left : Nat} {v : Value} {code : Int} (hcode : v.toInt = .ok code)
      (hhalf : isSurrogate code = true) : Hazard m imports left charOfCode [v]
  /-- A sequence is too long to be stored. -/
  | sequence {u v : Value} {first last : Int} (hfirst : u.toInt = .ok first)
      (hlast : v.toInt = .ok last) (hlong : storageLimit ≤ sequenceLength first last 1) :
      Hazard m imports 0 sequence [u, v]
  | steps {left : Nat} {u v t : Value} {first last step : Int} (hfirst : u.toInt = .ok first)
      (hlast : v.toInt = .ok last) (hstep : t.toInt = .ok step) (hpos : 0 < step)
      (hlong : storageLimit ≤ sequenceLength first last step) :
      Hazard m imports left sequence [u, v, t]
  /-- The path of an import has no name that can be extended. -/
  | nameless {left : Nat} {v : Value} {state : ImportState} {f : HostFault}
      (hstate : imports = some state)
      (hnone : importCandidates m state.current v.display = .error f) :
      Hazard m imports left importFile [v]
  /-- A path at which the file may be is too long. -/
  | tooLong {left : Nat} {v : Value} {state : ImportState} {paths : List Path} {p : Path}
      (hstate : imports = some state)
      (hpaths : importCandidates m state.current v.display = .ok paths) (hp : p ∈ paths)
      (hlong : m.files.locate p = .error .nameTooLong) : Hazard m imports left importFile [v]
  /-- The file holds an integer with too many digits. -/
  | source {left : Nat} {v : Value} {state : ImportState} {place : Place} {source : List Char}
      {token : Reading.Token} (hstate : imports = some state)
      (hplace : importPlace m state.current v.display = .ok place)
      (hsource : m.files.readText place = .ok source) (htoken : token ∈ Reading.tokens source)
      (hlong : exceedsDigitLimit token = true) : Hazard m imports left importFile [v]

end Builtin

namespace Evaluator

/-- Some of the arguments, evaluated from the left, are a hazard for the procedure. -/
def MeetsHazard (ev : Evaluator) (b : Builtin) (args : List Value) (frame : FrameId)
    (w : World) : Prop :=
  ∃ k vs u, ev.evaluateAll (args.take k) frame w = .ok vs u ∧
    Builtin.Hazard ev.machine u.imports (args.length - k) b vs

open Classical in
/-- The interpreter that does something else where a procedure meets a hazard. -/
noncomputable def averting (trap : Builtin → List Value → FrameId → EvalM Value) (m : Machine) :
    Nat → Evaluator
  | 0 => ⟨m, 0, fun _ _ => stop .outOfFuel, fun _ _ _ => stop .outOfFuel⟩
  | fuel + 1 =>
    ⟨m, fuel + 1, fun form frame => (averting trap m fuel).evaluateForm form frame,
      fun b args frame w =>
        if (averting trap m fuel).MeetsHazard b args frame w then trap b args frame w
        else (averting trap m fuel).performBuiltin b args frame w⟩

/-- An operator looks at its operands when it has the values of all of them. -/
theorem meetsHazard_arithmetic_iff {ev : Evaluator} {op : Arithmetic} {args : List Value}
    {frame : FrameId} {w : World} :
    ev.MeetsHazard (.arithmetic op) args frame w ↔
      ∃ vs u, ev.evaluateAll args frame w = .ok vs u ∧ op.Hazard vs := by
  constructor
  · rintro ⟨k, vs, u, hvalues, hhazard⟩
    generalize hleft : args.length - k = left at hhazard
    cases hhazard with
    | operands h =>
      rw [List.take_of_length_le (Nat.sub_eq_zero_iff_le.1 hleft)] at hvalues
      exact ⟨vs, u, hvalues, h⟩
    | overlong hlt _ _ => exact absurd hlt (Nat.not_lt_zero _)
  · rintro ⟨vs, u, hvalues, h⟩
    refine ⟨args.length, vs, u, by rwa [List.take_length], ?_⟩
    rw [Nat.sub_self]
    exact .operands h

end Evaluator

/-! ## Runs without procedures of the embedding program -/

/-- No procedures of the embedding program, and no other bounds. -/
def Bounds.native : Bounds where
  int _ := True
  symbols := True
  hosts := False
  captured _ _ := True
  int_of_inRange _ := trivial
  int_between _ _ _ _ := trivial
  symbols_of_hosts h := h.elim
  int_of_hosts h := h.elim
  captured_mono _ _ := trivial
  captured_of_lt _ _ := trivial

def nativeInvariant : Invariant := Bounds.native.everywhere fun _ _ => trivial

theorem sharesImports_nativeInvariant : nativeInvariant.SharesImports :=
  Bounds.sharesImports_everywhere fun _ _ => trivial

/-- Such runs that fail outside the language only when the input is interrupted. -/
def soundCoupling : Coupling :=
  nativeInvariant.coupling.withFaults (· = .interrupted) fun hosts => hosts.elim

theorem sharesImports_soundCoupling : soundCoupling.SharesImports where
  imports_eq hw := sharesImports_nativeInvariant.coupling.imports_eq hw
  enter file hw hstate := sharesImports_nativeInvariant.coupling.enter file hw hstate
  leave hw hw' := sharesImports_nativeInvariant.coupling.leave hw hw'

/-- Such runs, but for the faults of one import. -/
def searchCoupling (m : Machine) (imports : Option ImportState) (text : String) : Coupling :=
  soundCoupling.withFaults (fun f => f = .interrupted ∨ Coupling.ImportFault m imports text f)
    fun hosts => hosts.elim

theorem sharesImports_searchCoupling (m : Machine) (imports : Option ImportState)
    (text : String) : (searchCoupling m imports text).SharesImports where
  imports_eq hw := sharesImports_soundCoupling.imports_eq hw
  enter file hw hstate := sharesImports_soundCoupling.enter file hw hstate
  leave hw hw' := sharesImports_soundCoupling.leave hw hw'

theorem Coupling.Lockstep.interrupted {α : Type} {n : Nat} {Q : Nat → α → Prop} {x y : EvalM α}
    {w u : World} {f : HostFault} (h : soundCoupling.Lockstep n Q x y)
    (hw : soundCoupling.Held w w) (hn : w.size = n) (hrun : x w = .error (.fault f) u) :
    f = .interrupted :=
  h.allows hw hn (outcome_of_error hrun)

/-! ## Faults of built-in procedures -/

/-- The first `k` arguments have been evaluated. -/
structure Reached (ev : Evaluator) (args : List Value) (frame : FrameId) (w : World) (k : Nat)
    (vs : List Value) (u : World) : Prop where
  values : ev.evaluateAll (args.take k) frame w = .ok vs u
  after : soundCoupling.After w w u u

namespace Reached

variable {ev : Evaluator} {args : List Value} {frame : FrameId} {w u u' : World} {k : Nat}
  {vs : List Value} {v : Value} {b : Builtin} {procedure : String} {f : HostFault}

theorem start (ev : Evaluator) (args : List Value) (frame : FrameId)
    (hw : soundCoupling.Held w w) : Reached ev args frame w 0 [] w :=
  ⟨rfl, .refl hw⟩

theorem meetsHazard (hr : Reached ev args frame w k vs u)
    (h : Builtin.Hazard ev.machine u.imports (args.length - k) b vs) :
    ev.MeetsHazard b args frame w :=
  ⟨k, vs, u, hr.values, h⟩

variable (h : soundCoupling.Matched ev ev) (hc : soundCoupling.AdmitsCall w.size args frame)
  (hr : Reached ev args frame w k vs u)
include h hc hr

theorem argument_interrupted
    (hrun : ev.argument procedure args k frame u = .error (.fault f) u') : f = .interrupted :=
  (h.argument (hc.mono hr.after.size_le)).interrupted hr.after.held rfl hrun

theorem argument (hrun : ev.argument procedure args k frame u = .ok v u') :
    Reached ev args frame w (k + 1) (vs ++ [v]) u' := by
  have hrunning : soundCoupling.Lockstep u.size _ (ev.argument procedure args k frame)
      (ev.argument procedure args k frame) := h.argument (hc.mono hr.after.size_le)
  have hafter := hrunning.after hr.after.held rfl
  rw [worldAfter_of_ok hrun] at hafter
  refine ⟨?_, hr.after.trans hafter⟩
  cases hform : args[k]? with
  | none =>
    rw [Evaluator.argument, hform] at hrun
    cases hrun
  | some form =>
    rw [Evaluator.argument, hform] at hrun
    have hlast : ev.evaluateAll [form] frame u = .ok [v] u' := by
      rw [Evaluator.evaluateAll, bind_of_ok hrun]
      rfl
    rw [List.take_add_one, hform, Option.toList_some, ev.evaluateAll_append, bind_of_ok hr.values,
      bind_of_ok hlast]
    rfl

theorem intArgument {a : Int} (hrun : ev.intArgument procedure args k frame u = .ok a u') :
    ∃ v, v.toInt = .ok a ∧ Reached ev args frame w (k + 1) (vs ++ [v]) u' := by
  obtain ⟨v, t, hargument, hrun⟩ := exists_of_bind_ok hrun
  obtain ⟨hv, rfl⟩ := ofOutcome_eq_ok hrun
  exact ⟨v, hv, hr.argument h hc hargument⟩

/-- An argument that is no integer is refused, unless it has too many digits. -/
theorem meetsHazard_of_intArgument (hlt : vs.length < b.integers)
    (hbefore : ∀ u ∈ vs, ∃ n, u.toInt = .ok n) (hf : f ≠ .interrupted)
    (hrun : ev.intArgument procedure args k frame u = .error (.fault f) u') :
    ev.MeetsHazard b args frame w := by
  rcases exists_of_bind_error hrun with hargument | ⟨v, t, hargument, hrun⟩
  · exact absurd (hr.argument_interrupted h hc hargument) hf
  · have hlong := Value.isOverlong_of_toInt (ofOutcome_eq_error hrun)
    exact (hr.argument h hc hargument).meetsHazard (.overlong hlt hbefore hlong)

end Reached

namespace Coupling.Matched

variable {ev : Evaluator} {args : List Value} {frame : FrameId} {w u : World} {f : HostFault}
  (h : soundCoupling.Matched ev ev) (hc : soundCoupling.AdmitsCall w.size args frame)
  (hw : soundCoupling.Held w w) (hf : f ≠ .interrupted)
include h hc hw hf

theorem meetsHazard_arithmetic {op : Arithmetic}
    (hrun : ev.arithmetic op args frame w = .error (.fault f) u) :
    ev.MeetsHazard (.arithmetic op) args frame w := by
  rcases exists_of_bind_error hrun with hrequire | ⟨_, t, hrequire, hrest⟩
  · exact absurd ((Lockstep.require _ _ _).interrupted hw rfl hrequire) hf
  have hsame : t = w := by
    unfold require at hrequire
    split at hrequire <;> cases hrequire
    rfl
  rw [hsame] at hrest
  rcases exists_of_bind_error hrest with hargs | ⟨vs, t, hargs, hfold⟩
  · exact absurd ((h.evaluateAll hc.forms hc.active).interrupted hw rfl hargs) hf
  rcases exists_of_bind_error hfold with hoperands | ⟨v, _, _, hmarked⟩
  · exact Evaluator.meetsHazard_arithmetic_iff.2
      ⟨vs, t, hargs, Arithmetic.hazard_of_onOperands (ofOutcome_eq_error hoperands)⟩
  · cases hmarked

theorem meetsHazard_convert {target : Conversion}
    (hrun : ev.convert target args frame w = .error (.fault f) u) :
    ev.MeetsHazard (.convert target) args frame w := by
  have hstart := Reached.start ev args frame hw
  rcases exists_of_bind_error hrun with hargument | ⟨v, t, hargument, hrun⟩
  · exact absurd (hstart.argument_interrupted h hc hargument) hf
  have hreached := hstart.argument h hc hargument
  rcases exists_of_bind_error hrun with happly | ⟨_, _, _, hmarked⟩
  · rcases Conversion.hazard_of_apply (ofOutcome_eq_error happly) with ⟨rfl, hlong⟩ | ⟨rfl, hhuge⟩
    · exact hreached.meetsHazard (.overlong Nat.one_pos (by simp) hlong)
    · exact hreached.meetsHazard (.huge hhuge)
  · cases hmarked

theorem meetsHazard_charOfCode (hrun : ev.charOfCode args frame w = .error (.fault f) u) :
    ev.MeetsHazard .charOfCode args frame w := by
  have hstart := Reached.start ev args frame hw
  rcases exists_of_bind_error hrun with hcode | ⟨code, t, hcode, hrun⟩
  · exact hstart.meetsHazard_of_intArgument h hc Nat.one_pos (by simp) hf hcode
  obtain ⟨v, hv, hreached⟩ := hstart.intArgument h hc hcode
  rcases exists_of_bind_error hrun with htext | ⟨_, _, _, hpure⟩
  · exact hreached.meetsHazard (.surrogate hv (isSurrogate_of_codeText (ofOutcome_eq_error htext)))
  · cases hpure

theorem meetsHazard_exit (hrun : ev.exit args frame w = .error (.fault f) u) :
    ev.MeetsHazard .exit args frame w := by
  have hstart := Reached.start ev args frame hw
  rcases exists_of_choose_error hrun with ⟨-, hstop⟩ | ⟨-, hcode | ⟨code, t, -, hstop⟩⟩
  · cases hstop
  · exact hstart.meetsHazard_of_intArgument h hc Nat.one_pos (by simp) hf hcode
  · cases hstop

theorem meetsHazard_random (hrun : ev.random args frame w = .error (.fault f) u) :
    ev.MeetsHazard .random args frame w := by
  have hstart := Reached.start ev args frame hw
  have hdraw : ∀ low high t,
      (if high < low then fail (.emptyRange low high) else do
        let n ← drawBetween low high
        pure (.int n) : EvalM Value) t ≠ .error (.fault f) u := by
    intro low high t hrun
    cases (of_unless_fails hrun).2
  rcases exists_of_choose_error hrun with ⟨hnone, hrest⟩ | ⟨-, hlow | ⟨low, t, hlow, hrest⟩⟩
  · rcases exists_of_choose_error hrest with ⟨-, hrest⟩ | ⟨hlong, -⟩
    · exact absurd hrest (hdraw _ _ _)
    · exact absurd (List.isEmpty_iff.1 hnone ▸ Nat.zero_le 1) hlong
  · exact hstart.meetsHazard_of_intArgument h hc (by decide) (by simp) hf hlow
  obtain ⟨v, hv, hreached⟩ := hstart.intArgument h hc hlow
  rcases exists_of_choose_error hrest with ⟨-, hrest⟩ | ⟨-, hhigh | ⟨high, t', -, hrest⟩⟩
  · exact absurd hrest (hdraw _ _ _)
  · exact hreached.meetsHazard_of_intArgument h hc Nat.one_lt_two (by simp [hv]) hf hhigh
  · exact absurd hrest (hdraw _ _ _)

theorem meetsHazard_sequence (hrun : ev.sequence args frame w = .error (.fault f) u) :
    ev.MeetsHazard .sequence args frame w := by
  have hstart := Reached.start ev args frame hw
  rcases exists_of_bind_error hrun with hfirst | ⟨first, t, hfirst, hrest⟩
  · exact hstart.meetsHazard_of_intArgument h hc (by decide) (by simp) hf hfirst
  obtain ⟨v₁, hv₁, hreached₁⟩ := hstart.intArgument h hc hfirst
  rcases exists_of_bind_error hrest with hlast | ⟨last, t, hlast, hrest⟩
  · exact hreached₁.meetsHazard_of_intArgument h hc (show 1 < 3 by decide) (by simp [hv₁]) hf hlast
  obtain ⟨v₂, hv₂, hreached₂⟩ := hreached₁.intArgument h hc hlast
  rcases exists_of_choose_error hrest with ⟨hshort, hrest⟩ | ⟨-, hstep | ⟨step, t, hstep, hrest⟩⟩
  · have hitems := (of_unless_fails hrest).2
    cases hlong : sequenceItems first last 1 with
    | ok items =>
      rw [hlong] at hitems
      cases hitems
    | error fault =>
      refine hreached₂.meetsHazard ?_
      rw [Nat.sub_eq_zero_of_le hshort]
      exact .sequence hv₁ hv₂ (storageLimit_le_of_sequenceItems hlong)
  · exact hreached₂.meetsHazard_of_intArgument h hc (show 2 < 3 by decide) (by simp [hv₁, hv₂]) hf
      hstep
  · obtain ⟨v₃, hv₃, hreached₃⟩ := hreached₂.intArgument h hc hstep
    obtain ⟨hpos, hitems⟩ := of_unless_fails hrest
    cases hlong : sequenceItems first last step with
    | ok items =>
      rw [hlong] at hitems
      cases hitems
    | error fault =>
      exact hreached₃.meetsHazard (.steps hv₁ hv₂ hv₃ (Int.not_le.1 hpos)
        (storageLimit_le_of_sequenceItems hlong))

theorem meetsHazard_importArgument (hrun : ev.importArgument args frame w = .error (.fault f) u) :
    ev.MeetsHazard .importFile args frame w := by
  have hstart := Reached.start ev args frame hw
  rcases exists_of_bind_error hrun with htext | ⟨text, t, htext, hrest⟩
  · exact absurd ((h.textArgument hc).interrupted hw rfl htext) hf
  obtain ⟨v, t, hargument, hpure⟩ := exists_of_bind_ok htext
  cases hpure
  have hreached := hstart.argument h hc hargument
  have hheld : (searchCoupling ev.machine t.imports v.display).Held t t :=
    ⟨hreached.after.held.worlds, hreached.after.held.store⟩
  have hmatched : (searchCoupling ev.machine t.imports v.display).Matched ev ev :=
    h.withFaults fun _ => .inl
  have hactive : (searchCoupling ev.machine t.imports v.display).active t.size frame := trivial
  have hends := hmatched.importFile_ends (sharesImports_searchCoupling _ _ _) hactive hheld rfl
    fun _ => .inr
  rw [hrest] at hends
  cases hends with
  | error allowed _ =>
    rcases allowed with rfl | hfault
    · exact absurd rfl hf
    · cases hfault with
      | search hstate hplace =>
        rcases candidate_of_importPlace hplace with hnone | ⟨paths, hpaths, p, hp, hlong⟩
        · exact hreached.meetsHazard (.nameless hstate hnone)
        · exact hreached.meetsHazard (.tooLong hstate hpaths hp hlong)
      | reading hstate hplace hsource hread =>
        obtain ⟨token, htoken, hlong⟩ := Reading.exceedsDigitLimit_of_read hread
        rw [String.toList_ofList] at htoken
        exact hreached.meetsHazard (.source hstate hplace hsource htoken hlong)

/-- Where means are sound, a procedure that is performed with them fails outside the language
only at a hazard. -/
theorem meetsHazard_of_performBuiltin {b : Builtin}
    (hrun : ev.performBuiltin b args frame w = .error (.fault f) u) :
    ev.MeetsHazard b args frame w := by
  by_cases hmay : b.mayFault = true
  · cases b with
    | arithmetic op => exact h.meetsHazard_arithmetic hc hw hf hrun
    | convert target => exact h.meetsHazard_convert hc hw hf hrun
    | sequence => exact h.meetsHazard_sequence hc hw hf hrun
    | charOfCode => exact h.meetsHazard_charOfCode hc hw hf hrun
    | random => exact h.meetsHazard_random hc hw hf hrun
    | exit => exact h.meetsHazard_exit hc hw hf hrun
    | readLine => exact absurd ((h.readLine hc rfl).interrupted hw rfl hrun) hf
    | importFile => exact h.meetsHazard_importArgument hc hw hf hrun
    | _ => cases hmay
  · have hrunning := h.performBuiltin b (fun _ => sharesImports_soundCoupling)
      (fun h => absurd h hmay) hc
    exact absurd (hrunning.interrupted hw rfl hrun) hf

end Coupling.Matched

/-! ## Runs without hazards -/

/-- What is sound stays so in runs that may fail in every way. -/
theorem Coupling.Matched.native {ev : Evaluator} (h : soundCoupling.Matched ev ev) :
    nativeInvariant.coupling.Matched ev ev := by
  have hall : (soundCoupling.withFaults (fun _ => True) fun _ _ => trivial).Matched ev ev :=
    h.withFaults fun _ _ => trivial
  exact hall

/-- The interpreter that refuses all hazards is sound. -/
theorem matched_averting (e : ScriptError) (m : Machine) (fuel : Nat) :
    soundCoupling.Matched (.averting (fun _ _ _ => fail e) m fuel)
      (.averting (fun _ _ _ => fail e) m fuel) := by
  induction fuel with
  | zero =>
    exact ⟨rfl, rfl, fun _ _ => .stop (s := .outOfFuel) trivial,
      fun _ _ _ _ _ => .stop (s := .outOfFuel) trivial⟩
  | succ fuel ih =>
    refine ⟨rfl, rfl, fun hform hframe => ih.evaluateForm hform hframe, ?_⟩
    intro n b args frame hargs hframe w₁ w₂ hw hn
    obtain ⟨rfl, -⟩ := hw.worlds
    subst hn
    simp only [Evaluator.averting]
    split
    · exact Coupling.Lockstep.fail e w₁ w₁ hw rfl
    · next hsafe =>
      have hc : soundCoupling.AdmitsCall w₁.size args frame := ⟨hargs, hframe⟩
      have hnative : nativeInvariant.coupling.AdmitsCall w₁.size args frame := ⟨hargs, hframe⟩
      have hrun := ih.native.performBuiltin b (fun _ => sharesImports_nativeInvariant.coupling)
        (fun _ => Invariant.permissive _) hnative
      have hvalue : nativeInvariant.coupling.Lockstep w₁.size nativeInvariant.Admits _ _ :=
        hrun.imp fun m v _ hv => by
          rcases hv with hv | ⟨-, k, rfl⟩
          · exact hv
          · exact Bounds.admits_int.2 trivial
      refine (hvalue w₁ w₁ ⟨hw.worlds, hw.store⟩ rfl).withFaults fun f u hfault _ => ?_
      by_contra hf
      exact hsafe (ih.meetsHazard_of_performBuiltin hc hw hf hfault)

end SmallLisp
