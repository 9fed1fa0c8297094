import SmallLisp.Proofs.Bounds

/-! # Bounds on stores

A store lies within bounds when every frame that a closure may hold does: what its
names are bound to are values within the bounds, and a closure may hold its outer
frame too. All changes of a store keep it within the bounds. -/

namespace SmallLisp.Bounds

variable {B : Bounds} {n m : Nat} {α : Type}

structure AdmitsFrame (B : Bounds) (n : Nat) (frame : Frame) : Prop where
  vars : ∀ entry ∈ frame.vars.entries, B.Admits n entry.2
  procs : ∀ entry ∈ frame.procs.entries, B.Admits n entry.2.toValue
  outer : ∀ g, frame.outer = some g → B.captured n g

def AdmitsStore (B : Bounds) (s : Store) : Prop :=
  ∀ f frame, B.captured s.frames.size f → s.frames[f]? = some frame →
    B.AdmitsFrame s.frames.size frame

theorem AdmitsFrame.mono {frame : Frame} (hnm : n ≤ m) (h : B.AdmitsFrame n frame) :
    B.AdmitsFrame m frame where
  vars entry he := (h.vars entry he).mono hnm
  procs entry he := (h.procs entry he).mono hnm
  outer g hg := B.captured_mono hnm (h.outer g hg)

theorem mem_setEntry {name : String} {value : α} {entries : List (String × α)}
    {entry : String × α} (h : entry ∈ Table.setEntry name value entries) :
    entry = (name, value) ∨ entry ∈ entries := by
  induction entries with
  | nil => exact Or.inl (List.mem_singleton.1 h)
  | cons first rest ih =>
    unfold Table.setEntry at h
    split at h
    · rcases List.mem_cons.1 h with h | h
      · exact Or.inl h
      · exact Or.inr (List.mem_cons_of_mem _ h)
    · rcases List.mem_cons.1 h with rfl | h
      · exact Or.inr List.mem_cons_self
      · exact (ih h).imp_right (List.mem_cons_of_mem _)

/-- A change of one table keeps a store within the bounds if it keeps frames there. -/
theorem AdmitsStore.change {s : Store} (h : B.AdmitsStore s) (ns : Namespace α) (f : FrameId)
    (op : Table α → Table α)
    (hop : ∀ frame, B.AdmitsFrame s.frames.size frame →
      B.AdmitsFrame s.frames.size (ns.change op frame)) :
    B.AdmitsStore (s.change ns f op) := by
  intro g after hg hafter
  rw [Store.size_change] at hg ⊢
  obtain ⟨before, hbefore, rfl⟩ := Store.frame_of_change hafter
  have hframe := h g before hg hbefore
  split
  · exact hop before hframe
  · exact hframe

theorem AdmitsStore.setVariable {s : Store} (h : B.AdmitsStore s) (f : FrameId) (name : String)
    {v : Value} (hv : B.Admits s.frames.size v) : B.AdmitsStore (s.set .vars f name v) := by
  refine h.change .vars f _ fun frame hframe => ⟨?_, hframe.procs, hframe.outer⟩
  intro entry he
  rcases mem_setEntry he with rfl | he
  · exact hv
  · exact hframe.vars entry he

theorem AdmitsStore.eraseVariable {s : Store} (h : B.AdmitsStore s) (f : FrameId)
    (name : String) : B.AdmitsStore (s.erase .vars f name) := by
  refine h.change .vars f _ fun frame hframe => ⟨?_, hframe.procs, hframe.outer⟩
  intro entry he
  exact hframe.vars entry (List.mem_filter.1 he).1

theorem AdmitsStore.defineProcedure {s : Store} (h : B.AdmitsStore s) (f : FrameId)
    (name : String) {p : Function} (hp : B.Admits s.frames.size p.toValue) :
    B.AdmitsStore (s.set .procs f name p) := by
  refine h.change .procs f _ fun frame hframe => ⟨hframe.vars, ?_, hframe.outer⟩
  intro entry he
  rcases mem_setEntry he with rfl | he
  · exact hp
  · exact hframe.procs entry he

theorem AdmitsStore.makeChild {s : Store} (h : B.AdmitsStore s) {outer : FrameId}
    (houter : B.captured s.frames.size outer) : B.AdmitsStore (s.makeChild outer).2 := by
  intro f frame hf hframe
  have hle := Nat.le_succ s.frames.size
  rw [Store.size_makeChild] at hf ⊢
  rw [Store.frames_makeChild] at hframe
  by_cases hnew : f = s.frames.size
  · rw [if_pos hnew] at hframe
    cases hframe
    refine ⟨fun _ he => absurd he List.not_mem_nil, fun _ he => absurd he List.not_mem_nil, ?_⟩
    intro g hg
    cases hg
    exact B.captured_mono hle houter
  · rw [if_neg hnew] at hframe
    have hlt := (Array.getElem?_eq_some_iff.1 hframe).1
    exact (h f frame (B.captured_of_lt hlt hf) hframe).mono hle

/-! ## Looking up -/

/-- From a frame that a closure may hold, only such frames are in sight. -/
theorem AdmitsStore.captured_of_mem_chain {s : Store} (h : B.AdmitsStore s) {f g : FrameId}
    (hf : B.captured s.frames.size f) (hg : g ∈ s.chain f) : B.captured s.frames.size g :=
  (Store.chain_congr (fun _ _ => rfl)
    (fun f frame g hf hframe hg => (h f frame hf hframe).outer g hg) f hf).2 g hg

/-- What a name is bound to in sight is bound in a frame within the bounds. -/
theorem AdmitsStore.get? {s : Store} (h : B.AdmitsStore s) {ns : Namespace α} {f : FrameId}
    {name : String} {value : α} (hf : B.captured s.frames.size f)
    (hvalue : s.get? ns f name = some value) :
    ∃ frame, B.AdmitsFrame s.frames.size frame ∧ (name, value) ∈ (ns.table frame).entries := by
  obtain ⟨g, hg, frame, hframe, hentry⟩ := Store.get?_eq_some hvalue
  exact ⟨frame, h g frame (h.captured_of_mem_chain hf hg) hframe, hentry⟩

theorem AdmitsStore.value? {s : Store} (h : B.AdmitsStore s) {f : FrameId} {name : String}
    {v : Value} (hf : B.captured s.frames.size f) (hv : s.value? f name = some v) :
    B.Admits s.frames.size v := by
  unfold Store.value? at hv
  split at hv
  · next u hu =>
    cases hv
    obtain ⟨frame, hframe, hentry⟩ := h.get? hf hu
    exact hframe.vars _ hentry
  · obtain ⟨p, hp, rfl⟩ := Option.map_eq_some_iff.1 hv
    obtain ⟨frame, hframe, hentry⟩ := h.get? hf hp
    exact hframe.procs _ hentry

theorem AdmitsStore.function? {s : Store} (h : B.AdmitsStore s) {f : FrameId} {name : String}
    {p : Function} (hf : B.captured s.frames.size f) (hp : s.function? f name = some p) :
    B.Admits s.frames.size p.toValue := by
  unfold Store.function? at hp
  split at hp
  · next q hq =>
    cases hp
    obtain ⟨frame, hframe, hentry⟩ := h.get? hf hq
    exact hframe.procs _ hentry
  · obtain ⟨v, hv, hvp⟩ := Option.bind_eq_some_iff.1 hp
    obtain ⟨frame, hframe, hentry⟩ := h.get? hf hv
    rw [Value.toValue_of_function? hvp]
    exact hframe.vars _ hentry

end SmallLisp.Bounds
