import SmallLisp.Proofs.Bounds.Store

/-! # Frames within reach

A value reaches the frames that its closures hold, and a frame reaches those that its
bindings hold and the one around it. A store lies within the bounds on captured frames
when the frames that may be held reach no others. -/

namespace SmallLisp

namespace Value

mutual

/-- The frames that closures hold, at any depth of lists and of bodies. -/
def captured : Value → List FrameId
  | list items => capturedAll items
  | closure _ _ _ body frame => frame :: captured body
  | _ => []

def capturedAll : List Value → List FrameId
  | [] => []
  | v :: vs => captured v ++ capturedAll vs

end

theorem mem_capturedAll {f : FrameId} {vs : List Value} :
    f ∈ capturedAll vs ↔ ∃ v ∈ vs, f ∈ v.captured := by
  induction vs with
  | nil =>
    constructor
    · exact fun h => absurd h List.not_mem_nil
    · rintro ⟨v, hv, -⟩
      exact absurd hv List.not_mem_nil
  | cons v vs ih =>
    exact (List.mem_append.trans (or_congr_right ih)).trans
      (List.exists_mem_cons_iff (fun v => f ∈ v.captured) v vs).symm

end Value

/-- The frames that a frame leads to. -/
def Frame.links (frame : Frame) : List FrameId :=
  frame.outer.toList ++ Value.capturedAll (frame.vars.entries.map Prod.snd) ++
    Value.capturedAll (frame.procs.entries.map fun entry => entry.2.toValue)

/-- The frames that can be reached from some frames. -/
inductive Store.Reaches (s : Store) (roots : List FrameId) : FrameId → Prop
  | root {f : FrameId} : f ∈ roots → Reaches s roots f
  | link {f g : FrameId} {frame : Frame} : Reaches s roots f → s.frames[f]? = some frame →
      g ∈ frame.links → Reaches s roots g

/-- A set that has the roots and that no link leaves has all frames within reach. -/
theorem Store.Reaches.subset {s : Store} {roots : List FrameId} (inside : FrameId → Prop)
    (hroots : ∀ f ∈ roots, inside f)
    (hlinks : ∀ f frame g, inside f → s.frames[f]? = some frame → g ∈ frame.links → inside g)
    {f : FrameId} (h : s.Reaches roots f) : inside f := by
  induction h with
  | root hf => exact hroots _ hf
  | link _ hframe hg ih => exact hlinks _ _ _ ih hframe hg

namespace Bounds

/-- The only bound is on the frames that closures hold. -/
def within (inside : FrameId → Prop) : Bounds where
  int _ := True
  symbols := True
  hosts := True
  captured _ f := inside f
  int_of_inRange _ := trivial
  int_between _ _ _ _ := trivial
  symbols_of_hosts _ := trivial
  int_of_hosts _ _ := trivial
  captured_mono _ h := h
  captured_of_lt _ h := h

variable {inside : FrameId → Prop} {n : Nat}

mutual

theorem admitsForm_within : ∀ {v : Value}, (∀ f ∈ v.captured, inside f) →
    (within inside).AdmitsForm n v
  | .list _, h => admitsForms_within h
  | .closure _ _ _ _ _, h =>
    have ⟨hframe, hbody⟩ := List.forall_mem_cons.1 h
    ⟨admitsForm_within hbody, hframe⟩
  | .int _, _ | .host _, _ | .nil, _ | .bool _, _ | .float _, _ | .string _, _ | .symbol _, _
  | .builtin _, _ => trivial

theorem admitsForms_within : ∀ {vs : List Value}, (∀ f ∈ Value.capturedAll vs, inside f) →
    (within inside).AdmitsForms n vs
  | [], _ => trivial
  | _ :: _, h =>
    have ⟨hfirst, hrest⟩ := List.forall_mem_append.1 h
    ⟨admitsForm_within hfirst, admitsForms_within hrest⟩

end

theorem admits_within {v : Value} (h : ∀ f ∈ v.captured, inside f) :
    (within inside).Admits n v :=
  ⟨admitsForm_within h, Or.inl trivial⟩

/-- A store whose frames inside lead to no frames outside. -/
theorem admitsStore_within {s : Store}
    (h : ∀ f frame g, inside f → s.frames[f]? = some frame → g ∈ frame.links → inside g) :
    (within inside).AdmitsStore s := by
  intro f frame hf hframe
  have hlinks := fun g => h f frame g hf hframe
  refine ⟨fun entry he => ?_, fun entry he => ?_, fun g hg => ?_⟩
  · refine admits_within fun g hg => hlinks g ?_
    have hmem := Value.mem_capturedAll.2 ⟨entry.2, List.mem_map_of_mem he, hg⟩
    exact List.mem_append_left _ (List.mem_append_right _ hmem)
  · refine admits_within fun g hg => hlinks g ?_
    have hmem := Value.mem_capturedAll.2
      ⟨entry.2.toValue, List.mem_map_of_mem (f := fun e : String × Function => e.2.toValue) he, hg⟩
    exact List.mem_append_right _ hmem
  · have hmem : g ∈ frame.outer.toList := by rw [hg, Option.toList_some, List.mem_singleton]
    exact hlinks g (List.mem_append_left _ (List.mem_append_left _ hmem))

/-- No bounds at all. -/
abbrev all : Bounds := within fun _ => True

theorem admitsForm_all (v : Value) : all.AdmitsForm n v := admitsForm_within fun _ _ => trivial

theorem admitsStore_all (s : Store) : all.AdmitsStore s :=
  admitsStore_within fun _ _ _ _ _ _ => trivial

end Bounds

end SmallLisp
