import SmallLisp.Proofs.Bounds.Reach
import SmallLisp.Proofs.NamedFunctions

/-! # Forests of frames

Where every frame but the root lies inside an older one, what holds of the root and is
handed on inward holds of all frames. All chains end at the root, and every loop that
goes outward from frame to frame ends, with what look-ups along the chain find. -/

namespace SmallLisp

/-! ## Forests -/

namespace Store

variable {s t : Store} {f g : FrameId}

/-- The root alone has no outer frame; that of any other frame was made before it. -/
structure Linked (s : Store) : Prop where
  root : s.frames[Store.root]?.map Frame.outer = some none
  inside : ∀ f < s.frames.size, f ≠ Store.root →
    ∃ g < f, s.frames[f]?.map Frame.outer = some (some g)

/-- The links between frames, and the frames that the closures in their bindings hold. -/
structure IsForest (s : Store) : Prop extends Linked s where
  links : ∀ (f : FrameId) (frame : Frame), s.frames[f]? = some frame →
    ∀ g ∈ frame.links, g < s.frames.size

/-- No frame is taken away, and no link of a frame changes. -/
structure Extends (t s : Store) : Prop where
  size_le : s.frames.size ≤ t.frames.size
  outer_eq : ∀ f < s.frames.size,
    t.frames[f]?.map Frame.outer = s.frames[f]?.map Frame.outer

/-- A forest that has grown out of the store `s`. -/
structure LinkedFrom (t s : Store) : Prop extends Linked t, Extends t s

namespace Linked

theorem root_lt (h : s.Linked) : Store.root < s.frames.size := by
  obtain ⟨frame, hframe, -⟩ := Option.map_eq_some_iff.1 h.root
  exact (Array.getElem?_eq_some_iff.1 hframe).1

theorem bare : Store.bare.Linked where
  root := rfl
  inside _ hf hroot := absurd (Nat.lt_one_iff.1 hf) hroot

/-- Only the links themselves matter. -/
theorem congr (h : s.Linked) (hsize : t.frames.size = s.frames.size)
    (houter : ∀ f : FrameId, t.frames[f]?.map Frame.outer = s.frames[f]?.map Frame.outer) :
    t.Linked where
  root := (houter Store.root).trans h.root
  inside f hf hroot := by
    obtain ⟨g, hg, hlink⟩ := h.inside f (hsize ▸ hf) hroot
    exact ⟨g, hg, (houter f).trans hlink⟩

theorem makeChild (h : s.Linked) (hf : f < s.frames.size) : (s.makeChild f).2.Linked where
  root := by rw [frames_makeChild_of_lt h.root_lt, h.root]
  inside g hg hroot := by
    rw [size_makeChild, Nat.lt_succ_iff_lt_or_eq] at hg
    rcases hg with hg | rfl
    · obtain ⟨k, hk, hlink⟩ := h.inside g hg hroot
      exact ⟨k, hk, by rw [frames_makeChild_of_lt hg, hlink]⟩
    · exact ⟨f, hf, by rw [frames_makeChild_size]; rfl⟩

/-- What holds of the root, and passes from a frame to those inside it, holds of all frames. -/
@[elab_as_elim]
theorem induction (h : s.Linked) {P : ∀ f : FrameId, f < s.frames.size → Prop}
    (root : P Store.root h.root_lt)
    (inside : ∀ (f g : FrameId) (hf : f < s.frames.size) (hg : g < f)
      (_ : s.frames[f]?.map Frame.outer = some (some g)), P g (hg.trans hf) → P f hf)
    (f : FrameId) (hf : f < s.frames.size) : P f hf := by
  induction f using Nat.strongRecOn with
  | ind f ih =>
    by_cases hroot : f = Store.root
    · subst hroot
      exact root
    · obtain ⟨g, hg, hlink⟩ := h.inside f hf hroot
      exact inside f g hf hg hlink (ih g hg (hg.trans hf))

theorem chain_root (h : s.Linked) : s.chain Store.root = [Store.root] := by
  rw [Store.chain_root, Array.getElem?_eq_getElem h.root_lt, Option.isSome_some, if_pos rfl]

/-- Every chain ends at the root. -/
theorem getLast?_chain (h : s.Linked) (hf : f < s.frames.size) :
    (s.chain f).getLast? = some Store.root := by
  induction f, hf using h.induction with
  | root => rw [h.chain_root, List.getLast?_singleton]
  | inside f g hf hg hlink ih =>
    rw [chain_inside hlink hg, List.getLast?_cons, ih, Option.getD_some]

end Linked

namespace Extends

variable {r : Store}

theorem refl (s : Store) : s.Extends s := ⟨le_rfl, fun _ _ => rfl⟩

theorem trans (h : t.Extends s) (h' : s.Extends r) : t.Extends r where
  size_le := h'.size_le.trans h.size_le
  outer_eq f hf := (h.outer_eq f (hf.trans_le h'.size_le)).trans (h'.outer_eq f hf)

end Extends

namespace LinkedFrom

variable {r : Store}

theorem refl (h : s.Linked) : s.LinkedFrom s := ⟨h, .refl s⟩

theorem change {α β : Type} {ns : Namespace α} {other : Namespace β} (h : s.LinkedFrom r)
    (ha : ns.Apart other) (f : FrameId) (op : Table α → Table α) :
    (s.change ns f op).LinkedFrom r where
  toLinked := h.toLinked.congr (s.size_change ns f op) fun g => outer_change ha s f g op
  toExtends := .trans ⟨(s.size_change ns f op).ge, fun g _ => outer_change ha s f g op⟩
    h.toExtends

theorem makeChild (h : s.LinkedFrom r) (hf : f < s.frames.size) :
    (s.makeChild f).2.LinkedFrom r where
  toLinked := h.toLinked.makeChild hf
  toExtends := by
    refine .trans ⟨?_, fun g hg => ?_⟩ h.toExtends
    · exact (Nat.le_succ _).trans_eq (s.size_makeChild f).symm
    · rw [frames_makeChild_of_lt hg]

end LinkedFrom

end Store

/-! ## Loops that go outward -/

/-- A loop over the frames from one outward. In each frame it stops with a result, or goes
on with a new state; past the outermost frame, the state decides. -/
structure Climb (σ ρ : Type) where
  visit : FrameId → σ → ρ ⊕ σ
  finish : σ → ρ

namespace Climb

variable {σ ρ : Type} {s : Store} {f : FrameId}

/-- From a frame, or from past the outermost one, the loop ends with a result. -/
inductive Ends (c : Climb σ ρ) (s : Store) : Option FrameId → σ → ρ → Prop
  | past (state : σ) : Ends c s none state (c.finish state)
  | stop {f : FrameId} {state : σ} {result : ρ} (hf : f < s.frames.size)
      (hvisit : c.visit f state = .inl result) : Ends c s (some f) state result
  | outward {f : FrameId} {outer : Option FrameId} {state state' : σ} {result : ρ}
      (hlink : s.frames[f]?.map Frame.outer = some outer)
      (hvisit : c.visit f state = .inr state') (hrest : Ends c s outer state' result) :
      Ends c s (some f) state result

/-- What the loop comes to if it meets these frames in turn. -/
def along (c : Climb σ ρ) : List FrameId → σ → ρ
  | [], state => c.finish state
  | f :: frames, state =>
    match c.visit f state with
    | .inl result => result
    | .inr state => along c frames state

variable {c : Climb σ ρ} {state : σ} {result : ρ}

theorem ends_none_iff : c.Ends s none state result ↔ result = c.finish state := by
  constructor
  · rintro ⟨⟩
    rfl
  · rintro rfl
    exact .past state

theorem ends_some_iff {outer : Option FrameId}
    (hlink : s.frames[f]?.map Frame.outer = some outer) :
    c.Ends s (some f) state result ↔
      match c.visit f state with
      | .inl r => result = r
      | .inr state => c.Ends s outer state result := by
  obtain ⟨frame, hframe, -⟩ := Option.map_eq_some_iff.1 hlink
  have hf := (Array.getElem?_eq_some_iff.1 hframe).1
  cases hvisit : c.visit f state with
  | inl r =>
    constructor
    · rintro (_ | ⟨-, h⟩ | ⟨-, h, -⟩) <;> rw [hvisit] at h <;> cases h
      rfl
    · rintro rfl
      exact .stop hf hvisit
  | inr state' =>
    constructor
    · rintro (_ | ⟨-, h⟩ | ⟨hlink', h, hrest⟩) <;> rw [hvisit] at h <;> cases h
      rw [hlink] at hlink'
      cases hlink'
      exact hrest
    · exact .outward hlink hvisit

/-- In a forest every such loop ends, with what it comes to along the chain. -/
theorem ends_iff (h : s.Linked) (hf : f < s.frames.size) (c : Climb σ ρ) (state : σ)
    (result : ρ) : c.Ends s (some f) state result ↔ result = c.along (s.chain f) state := by
  induction f, hf using h.induction generalizing state with
  | root =>
    rw [ends_some_iff h.root, h.chain_root, along]
    cases c.visit Store.root state with
    | inl r => exact Iff.rfl
    | inr state => exact ends_none_iff
  | inside f g hf hg hlink ih =>
    rw [ends_some_iff hlink, Store.chain_inside hlink hg, along]
    cases c.visit f state with
    | inl r => exact Iff.rfl
    | inr state => exact ih state

/-- The frames from the inside out. -/
def frames : Climb (List FrameId) (List FrameId) := ⟨fun f seen => .inr (seen ++ [f]), id⟩

theorem along_frames (chain seen : List FrameId) : frames.along chain seen = seen ++ chain := by
  induction chain generalizing seen with
  | nil => exact (List.append_nil seen).symm
  | cons f chain ih => exact (ih (seen ++ [f])).trans (List.append_assoc seen [f] chain)

variable {α : Type} (s : Store) (ns : Namespace α)

/-- The nearest frame that binds a name. -/
def find (name : String) : Climb Unit (Option FrameId) where
  visit f _ := if (s.table ns f).contains name then .inl (some f) else .inr ()
  finish _ := none

theorem along_find (name : String) (chain : List FrameId) :
    (find s ns name).along chain () = chain.find? fun f => (s.table ns f).contains name := by
  induction chain with
  | nil => rfl
  | cons f chain ih =>
    have hvisit : (find s ns name).visit f () =
        if (s.table ns f).contains name then .inl (some f) else .inr () := rfl
    rw [along, hvisit, List.find?_cons]
    cases (s.table ns f).contains name with
    | true => rfl
    | false => exact ih

/-- The names that were seen, followed by those that were not, each where it comes first. -/
def collect : List String → List String → List String
  | seen, [] => seen
  | seen, name :: names => collect (if name ∈ seen then seen else seen ++ [name]) names

theorem collect_eq (seen names : List String) :
    collect seen names = seen ++ (Store.distinct names).filter (· ∉ seen) := by
  induction names generalizing seen with
  | nil => exact (List.append_nil seen).symm
  | cons name names ih =>
    rw [collect, ih, Store.distinct, List.filter_cons, List.filter_filter]
    by_cases hseen : name ∈ seen
    · rw [if_pos hseen, if_neg (by simpa using hseen)]
      congr 1
      refine List.filter_congr fun other _ => ?_
      by_cases hother : other = name <;> simp [hother, hseen]
    · rw [if_neg hseen, if_pos (by simpa using hseen), List.append_assoc, List.singleton_append]
      congr 2
      refine List.filter_congr fun other _ => ?_
      simp [not_or, Bool.and_comm]

theorem collect_append (seen xs ys : List String) :
    collect seen (xs ++ ys) = collect (collect seen xs) ys := by
  induction xs generalizing seen with
  | nil => rfl
  | cons x xs ih => exact ih _

/-- The names in sight, each once. -/
def names : Climb (List String) (List String) where
  visit f seen := .inr (collect seen (s.table ns f).keys)
  finish seen := seen

theorem along_names (chain : List FrameId) (seen : List String) :
    (names s ns).along chain seen = collect seen (chain.flatMap fun f => (s.table ns f).keys) := by
  induction chain generalizing seen with
  | nil => rfl
  | cons f chain ih => rw [List.flatMap_cons, collect_append]; exact ih _

end Climb

namespace Store

variable {s : Store} {f : FrameId} {α : Type}

theorem Linked.ends_frames_iff (h : s.Linked) (hf : f < s.frames.size) (frames : List FrameId) :
    Climb.frames.Ends s (some f) [] frames ↔ frames = s.chain f := by
  rw [Climb.ends_iff h hf, Climb.along_frames, List.nil_append]

theorem Linked.ends_find_iff (h : s.Linked) (hf : f < s.frames.size) (ns : Namespace α)
    (name : String) (owner : Option FrameId) :
    (Climb.find s ns name).Ends s (some f) () owner ↔ owner = s.owner? ns f name := by
  rw [Climb.ends_iff h hf, Climb.along_find, owner?]

theorem Linked.ends_names_iff (h : s.Linked) (hf : f < s.frames.size) (ns : Namespace α)
    (names : List String) :
    (Climb.names s ns).Ends s (some f) [] names ↔ names = s.names ns f := by
  rw [Climb.ends_iff h hf, Climb.along_names, Climb.collect_eq, Store.names]
  simp

end Store

/-! ## The import state of a frame -/

/-- The root has the import state of the world, and a frame takes over that of the frame
around it. -/
inductive World.TakesImports (w : World) : FrameId → Option ImportState → Prop
  | root : TakesImports w Store.root w.imports
  | inside {f g : FrameId} {state : Option ImportState}
      (hlink : w.store.frames[f]?.map Frame.outer = some (some g))
      (houter : TakesImports w g state) : TakesImports w f state

namespace World

variable {w : World} {f : FrameId} {state : Option ImportState}

theorem TakesImports.eq (h : w.TakesImports f state) : state = w.imports := by
  induction h with
  | root => rfl
  | inside _ _ ih => exact ih

/-- All frames of a forest share the import state of the root. -/
theorem takesImports_iff (h : w.store.Linked) (hf : f < w.size) :
    w.TakesImports f state ↔ state = w.imports := by
  refine ⟨TakesImports.eq, ?_⟩
  rintro rfl
  induction f, hf using h.induction with
  | root => exact .root
  | inside f g hf hg hlink ih => exact .inside hlink ih

end World

end SmallLisp
