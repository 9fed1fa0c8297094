import Mathlib
import SmallLisp.Scope.Store

/-! # Stores frame by frame

What each change of a store does to each of its frames, and what a look-up
reads: the frames on one chain and nothing else. -/

namespace SmallLisp.Store

variable {α : Type}

/-! ## Frames after a change -/

theorem frames_makeChild (s : Store) (outer g : FrameId) :
    (s.makeChild outer).2.frames[g]? =
      if g = s.frames.size then some (.inside (some outer)) else s.frames[g]? := by
  simp only [makeChild, Array.getElem?_push]

theorem frames_makeChild_of_lt {s : Store} {g : FrameId} (hg : g < s.frames.size)
    (outer : FrameId) : (s.makeChild outer).2.frames[g]? = s.frames[g]? := by
  rw [frames_makeChild, if_neg (Nat.ne_of_lt hg)]

theorem frames_makeChild_size (s : Store) (outer : FrameId) :
    (s.makeChild outer).2.frames[s.frames.size]? = some (.inside (some outer)) := by
  rw [frames_makeChild, if_pos rfl]

theorem frames_change (s : Store) (ns : Namespace α) (f : FrameId) (op : Table α → Table α)
    (g : FrameId) :
    (s.change ns f op).frames[g]? =
      if f = g then s.frames[g]?.map (ns.change op) else s.frames[g]? := by
  simp only [change, Array.getElem?_modify]

theorem frames_change_of_ne (s : Store) (ns : Namespace α) {f g : FrameId}
    (op : Table α → Table α) (h : f ≠ g) :
    (s.change ns f op).frames[g]? = s.frames[g]? := by
  rw [frames_change, if_neg h]

theorem frames_set_of_ne (s : Store) (ns : Namespace α) {f g : FrameId} (name : String)
    (value : α) (h : f ≠ g) : (s.set ns f name value).frames[g]? = s.frames[g]? :=
  s.frames_change_of_ne ns _ h

theorem frames_set_self (s : Store) (ns : Namespace α) (f : FrameId) (name : String) (value : α) :
    (s.set ns f name value).frames[f]? = s.frames[f]?.map (ns.change (·.set name value)) := by
  rw [set, frames_change, if_pos rfl]

/-- A frame after a change is the frame before, changed if it is the one concerned. -/
theorem frame_of_change {s : Store} {ns : Namespace α} {f g : FrameId}
    {op : Table α → Table α} {after : Frame}
    (h : (s.change ns f op).frames[g]? = some after) :
    ∃ before, s.frames[g]? = some before ∧
      after = if f = g then ns.change op before else before := by
  rw [frames_change] at h
  by_cases hfg : f = g
  · rw [if_pos hfg, Option.map_eq_some_iff] at h
    obtain ⟨before, hbefore, rfl⟩ := h
    exact ⟨before, hbefore, by rw [if_pos hfg]⟩
  · rw [if_neg hfg] at h
    exact ⟨after, h, by rw [if_neg hfg]⟩

@[simp] theorem size_change (s : Store) (ns : Namespace α) (f : FrameId)
    (op : Table α → Table α) : (s.change ns f op).frames.size = s.frames.size := by
  simp only [change, Array.size_modify]

@[simp] theorem size_makeChild (s : Store) (outer : FrameId) :
    (s.makeChild outer).2.frames.size = s.frames.size + 1 := by
  simp only [makeChild, Array.size_push]

theorem table_eq (s : Store) (ns : Namespace α) (f : FrameId) :
    s.table ns f = (s.frames[f]?.map ns.table).getD .empty := by
  unfold table
  cases s.frames[f]? <;> rfl

theorem table_congr {s t : Store} {f : FrameId} (ns : Namespace α)
    (h : t.frames[f]? = s.frames[f]?) : t.table ns f = s.table ns f := by
  rw [table_eq, table_eq, h]

section

variable {s : Store} {f : FrameId} (name : String)

theorem table_set_vars (hf : f < s.frames.size) (v : Value) :
    (s.set .vars f name v).table .vars f = (s.table .vars f).set name v := by
  rw [table_eq, table_eq, frames_set_self, Array.getElem?_eq_getElem hf]
  rfl

theorem table_set_procs (hf : f < s.frames.size) (p : Function) :
    (s.set .procs f name p).table .procs f = (s.table .procs f).set name p := by
  rw [table_eq, table_eq, frames_set_self, Array.getElem?_eq_getElem hf]
  rfl

theorem table_procs_set_vars (g : FrameId) (v : Value) :
    (s.set .vars f name v).table .procs g = s.table .procs g := by
  rw [table_eq, table_eq, set, frames_change]
  split
  · cases s.frames[g]? <;> rfl
  · rfl

theorem table_vars_set_procs (g : FrameId) (p : Function) :
    (s.set .procs f name p).table .vars g = s.table .vars g := by
  rw [table_eq, table_eq, set, frames_change]
  split
  · cases s.frames[g]? <;> rfl
  · rfl

end

/-! ## Chains -/

/-- The chain from a frame: the frame, and the chain from its outer frame. -/
theorem chain_of_some {s : Store} {f : FrameId} {frame : Frame} (h : s.frames[f]? = some frame) :
    s.chain f = f :: match frame.outer with
      | none => []
      | some outer => if outer < f then s.chain outer else [] := by
  rw [chain]
  split
  · next hnone =>
    rw [hnone] at h
    cases h
  · next other hsome =>
    rw [hsome] at h
    cases h
    rfl

theorem chain_of_none {s : Store} {f : FrameId} (h : s.frames[f]? = none) : s.chain f = [] := by
  rw [chain, h]

theorem lt_size_of_chain_ne_nil {s : Store} {f : FrameId} (h : s.chain f ≠ []) :
    f < s.frames.size := by
  by_contra hge
  exact h (chain_of_none (Array.getElem?_eq_none (Nat.le_of_not_lt hge)))

/-- Two stores with the same frames in a set that no outer link leaves have the
same chains there, and the chains stay inside the set. -/
theorem chain_congr {s t : Store} {inside : FrameId → Prop}
    (heq : ∀ f, inside f → s.frames[f]? = t.frames[f]?)
    (hout : ∀ f frame g, inside f → s.frames[f]? = some frame → frame.outer = some g → inside g)
    (f : FrameId) (hf : inside f) :
    s.chain f = t.chain f ∧ ∀ g ∈ s.chain f, inside g := by
  -- Outer links lead to older frames only, so the induction is on the age of the frame.
  induction f using Nat.strongRecOn with
  | ind f ih =>
    cases hs : s.frames[f]? with
    | none =>
      rw [chain_of_none hs, chain_of_none (heq f hf ▸ hs)]
      exact ⟨rfl, fun g hg => absurd hg List.not_mem_nil⟩
    | some frame =>
      rw [chain_of_some hs, chain_of_some (heq f hf ▸ hs)]
      cases ho : frame.outer with
      | none => exact ⟨rfl, fun g hg => List.mem_singleton.1 hg ▸ hf⟩
      | some outer =>
        by_cases hlt : outer < f
        · obtain ⟨heqo, hino⟩ := ih outer hlt (hout f frame outer hf hs ho)
          simp only [if_pos hlt, heqo, true_and]
          intro g hg
          rcases List.mem_cons.1 hg with rfl | hg
          · exact hf
          · exact hino g (heqo ▸ hg)
        · simp only [if_neg hlt, true_and]
          exact fun g hg => List.mem_singleton.1 hg ▸ hf

/-- What holds of no chain, of a frame alone, and of a frame before the chain of an older one,
holds of all chains. -/
theorem chain_induction {s : Store} {P : FrameId → List FrameId → Prop} (hnone : ∀ f, P f [])
    (hlast : ∀ f, f < s.frames.size → P f [f])
    (houter : ∀ f g, f < s.frames.size → g < f → P g (s.chain g) → P f (f :: s.chain g))
    (f : FrameId) : P f (s.chain f) := by
  induction f using Nat.strongRecOn with
  | ind f ih =>
    cases hframe : s.frames[f]? with
    | none => exact chain_of_none hframe ▸ hnone f
    | some frame =>
      have hf : f < s.frames.size := (Array.getElem?_eq_some_iff.1 hframe).1
      rw [chain_of_some hframe]
      cases frame.outer with
      | none => exact hlast f hf
      | some g =>
        dsimp only
        split
        · next hlt => exact houter f g hf hlt (ih g hlt)
        · exact hlast f hf

/-- The frames on a chain are there, and grow older from the inside out. -/
theorem chain_descends (s : Store) (f : FrameId) :
    (∀ g ∈ s.chain f, g ≤ f ∧ g < s.frames.size) ∧ (s.chain f).Nodup := by
  induction f using chain_induction (s := s) with
  | hnone f => exact ⟨fun g hg => absurd hg List.not_mem_nil, List.nodup_nil⟩
  | hlast f hf => exact ⟨by simpa using hf, List.nodup_singleton f⟩
  | houter f g hf hg ih =>
    constructor
    · intro h hh
      rcases List.mem_cons.1 hh with rfl | hh
      · exact ⟨le_rfl, hf⟩
      · exact ⟨(ih.1 h hh).1.trans hg.le, (ih.1 h hh).2⟩
    · exact List.nodup_cons.2 ⟨fun hmem => hg.not_ge (ih.1 f hmem).1, ih.2⟩

theorem lt_size_of_mem_chain {s : Store} {f g : FrameId} (hg : g ∈ s.chain f) :
    g < s.frames.size :=
  ((s.chain_descends f).1 g hg).2

/-- No frame is on a chain twice. -/
theorem nodup_chain (s : Store) (f : FrameId) : (s.chain f).Nodup := (s.chain_descends f).2

/-- Chains depend on the outer links only. -/
theorem chain_eq_of_outer {s t : Store}
    (h : ∀ g : FrameId, t.frames[g]?.map Frame.outer = s.frames[g]?.map Frame.outer)
    (f : FrameId) : t.chain f = s.chain f := by
  induction f using Nat.strongRecOn with
  | ind f ih =>
    have hf := h f
    cases hframe : s.frames[f]? with
    | none =>
      rw [hframe, Option.map_none, Option.map_eq_none_iff] at hf
      rw [chain_of_none hf, chain_of_none hframe]
    | some frame =>
      rw [hframe, Option.map_some, Option.map_eq_some_iff] at hf
      obtain ⟨frame', hframe', houter⟩ := hf
      rw [chain_of_some hframe', chain_of_some hframe, houter]
      cases frame.outer with
      | none => rfl
      | some g =>
        dsimp only
        split
        · next hlt => rw [ih g hlt]
        · rfl

theorem owner?_eq_some {s : Store} {ns : Namespace α} {f g : FrameId} {name : String}
    (h : s.owner? ns f name = some g) : g ∈ s.chain f ∧ (s.table ns g).contains name = true :=
  ⟨List.mem_of_find?_eq_some h, List.find?_some (p := fun g => (s.table ns g).contains name) h⟩

/-- An update changes the frame itself, or a frame on its chain that has the name. -/
theorem update_cases (s : Store) (ns : Namespace α) (f : FrameId) (name : String) (value : α) :
    (s.owner? ns f name = none ∧ s.update ns f name value = s.set ns f name value) ∨
      ∃ g ∈ s.chain f, s.owner? ns f name = some g ∧ (s.table ns g).contains name = true ∧
        s.update ns f name value = s.set ns g name value := by
  unfold update
  cases h : s.owner? ns f name with
  | none => exact Or.inl ⟨rfl, rfl⟩
  | some g => exact Or.inr ⟨g, (owner?_eq_some h).1, rfl, (owner?_eq_some h).2, rfl⟩

/-! ## What a look-up reads -/

theorem findSome?_congr {β : Type} {p q : α → Option β} {l : List α} (h : ∀ a ∈ l, p a = q a) :
    l.findSome? p = l.findSome? q := by
  induction l with
  | nil => rfl
  | cons a l ih =>
    rw [List.findSome?_cons, List.findSome?_cons, h a List.mem_cons_self,
      ih fun b hb => h b (List.mem_cons_of_mem a hb)]

/-- The same chain, and the same frames on it. -/
structure SameSight (s t : Store) (f : FrameId) : Prop where
  chain : s.chain f = t.chain f
  frames : ∀ g ∈ s.chain f, s.frames[g]? = t.frames[g]?

namespace SameSight

variable {s t : Store} {f : FrameId} (h : SameSight s t f) (ns : Namespace α)
include h

theorem table {g : FrameId} (hg : g ∈ s.chain f) : s.table ns g = t.table ns g := by
  rw [table_eq, table_eq, h.frames g hg]

theorem owner? (name : String) : s.owner? ns f name = t.owner? ns f name := by
  unfold Store.owner?
  rw [← h.chain]
  exact List.find?_congr fun g hg => by rw [h.table ns hg]

theorem get? (name : String) : s.get? ns f name = t.get? ns f name := by
  unfold Store.get?
  rw [← h.chain]
  exact findSome?_congr fun g hg => by rw [h.table ns hg]

theorem names : s.names ns f = t.names ns f := by
  unfold Store.names
  rw [← h.chain]
  congr 1
  exact List.flatMap_congr fun g hg => by rw [h.table ns hg]

theorem visible : s.visible ns f = t.visible ns f := by
  unfold Store.visible
  rw [h.names ns]
  congr 1
  exact funext fun name => by rw [h.get? ns name]

theorem value? (name : String) : s.value? f name = t.value? f name := by
  unfold Store.value?
  rw [h.get? .vars name, h.get? .procs name]

theorem function? (name : String) : s.function? f name = t.function? f name := by
  unfold Store.function?
  rw [h.get? .procs name, h.get? .vars name]

end SameSight

/-! ## Look-ups along outer links -/

theorem chain_root (s : Store) :
    s.chain root = if (s.frames[root]?).isSome then [root] else [] := by
  cases h : s.frames[root]? with
  | none => rw [chain_of_none h, Option.isSome_none, if_neg Bool.false_ne_true]
  | some frame =>
    rw [chain_of_some h, Option.isSome_some, if_pos rfl]
    cases frame.outer with
    | none => rfl
    | some outer => simp only [root, Nat.not_lt_zero, if_false]

theorem get?_root (s : Store) (ns : Namespace α) (name : String) :
    s.get? ns root name = (s.table ns root).get? name := by
  rw [get?, chain_root]
  cases h : s.frames[root]? with
  | none => rw [table_eq, h]; rfl
  | some frame => simp

theorem owner?_root (s : Store) (ns : Namespace α) (name : String) :
    s.owner? ns root name = if (s.table ns root).contains name then some root else none := by
  rw [owner?, chain_root]
  cases h : s.frames[root]? with
  | none => rw [table_eq, h]; rfl
  | some frame =>
    simp only [Option.isSome_some, if_true, List.find?_cons, List.find?_nil]
    cases (s.table ns root).contains name <;> rfl

theorem function?_root {s : Store} {name : String} {p : Function}
    (h : (s.table .procs root).get? name = some p) : s.function? root name = some p := by
  rw [function?, get?_root, h]

/-- An update of the root frame is made in place. -/
theorem update_root (s : Store) (ns : Namespace α) (name : String) (value : α) :
    s.update ns root name value = s.set ns root name value := by
  rw [update, owner?_root]
  split <;> rfl

section

variable {s : Store} {f g : FrameId} {frame : Frame}

theorem get?_outer (h : s.frames[f]? = some frame) (hg : frame.outer = some g) (hlt : g < f)
    (ns : Namespace α) (name : String) :
    s.get? ns f name = ((ns.table frame).get? name).or (s.get? ns g name) := by
  have htable : s.table ns f = ns.table frame := by rw [table_eq, h]; rfl
  simp only [get?, chain_of_some h, hg, if_pos hlt, List.findSome?_cons, htable]
  cases (ns.table frame).get? name <;> rfl

theorem owner?_outer (h : s.frames[f]? = some frame) (hg : frame.outer = some g) (hlt : g < f)
    (ns : Namespace α) (name : String) :
    s.owner? ns f name =
      if (ns.table frame).contains name then some f else s.owner? ns g name := by
  have htable : s.table ns f = ns.table frame := by rw [table_eq, h]; rfl
  simp only [owner?, chain_of_some h, hg, if_pos hlt, List.find?_cons, htable]
  cases (ns.table frame).contains name <;> rfl

/-- What can be seen from an empty frame is what can be seen from the frame around it. -/
theorem function?_inside (h : s.frames[f]? = some (.inside (some g))) (hlt : g < f)
    (name : String) : s.function? f name = s.function? g name := by
  rw [function?, function?, get?_outer h rfl hlt, get?_outer h rfl hlt]
  rfl

theorem owner?_inside (h : s.frames[f]? = some (.inside (some g))) (hlt : g < f)
    (name : String) : s.owner? .vars f name = s.owner? .vars g name := by
  rw [owner?_outer h rfl hlt]
  rfl

theorem value?_inside (h : s.frames[f]? = some (.inside (some g))) (hlt : g < f)
    (name : String) : s.value? f name = s.value? g name := by
  rw [value?, value?, get?_outer h rfl hlt, get?_outer h rfl hlt]
  rfl

end

/-! ## New frames -/

section

variable {s : Store} {f : FrameId}

theorem chain_makeChild (hf : f < s.frames.size) (outer : FrameId) :
    (s.makeChild outer).2.chain f = s.chain f := by
  induction f using Nat.strongRecOn with
  | ind f ih =>
    have hframe := Array.getElem?_eq_getElem hf
    rw [chain_of_some hframe, chain_of_some ((frames_makeChild_of_lt hf outer).trans hframe)]
    cases s.frames[f].outer with
    | none => rfl
    | some g =>
      dsimp only
      split
      · next hlt => rw [ih g hlt (hlt.trans hf)]
      · rfl

/-- From the frames that are there, a new frame is not seen. -/
theorem sameSight_makeChild (hf : f < s.frames.size) (outer : FrameId) :
    SameSight (s.makeChild outer).2 s f where
  chain := chain_makeChild hf outer
  frames g hg := by
    rw [chain_makeChild hf] at hg
    exact frames_makeChild_of_lt (lt_size_of_mem_chain hg) outer

theorem function?_makeChild (hf : f < s.frames.size) (name : String) :
    (s.makeChild f).2.function? s.frames.size name = s.function? f name :=
  (function?_inside (frames_makeChild_size s f) hf name).trans
    ((sameSight_makeChild hf f).function? name)

end

/-! ## Where bindings come from -/

theorem findEntry_mem {name : String} {value : α} {entries : List (String × α)}
    (h : Table.findEntry name entries = some value) : (name, value) ∈ entries := by
  induction entries with
  | nil => cases h
  | cons entry rest ih =>
    by_cases hn : entry.1 = name
    · simp only [Table.findEntry, if_pos hn, Option.some.injEq] at h
      rw [← hn, ← h]
      exact List.mem_cons_self
    · simp only [Table.findEntry, if_neg hn] at h
      exact List.mem_cons_of_mem _ (ih h)

/-- The nearest binding of a name is an entry of a frame on the chain. -/
theorem get?_eq_some {s : Store} {ns : Namespace α} {f : FrameId} {name : String} {value : α}
    (h : s.get? ns f name = some value) :
    ∃ g ∈ s.chain f, ∃ frame, s.frames[g]? = some frame ∧
      (name, value) ∈ (ns.table frame).entries := by
  obtain ⟨g, hg, hvalue⟩ := List.exists_of_findSome?_eq_some h
  rw [table_eq] at hvalue
  cases hframe : s.frames[g]? with
  | none =>
    rw [hframe] at hvalue
    cases hvalue
  | some frame =>
    rw [hframe] at hvalue
    exact ⟨g, hg, frame, hframe, findEntry_mem hvalue⟩

end SmallLisp.Store
