import Mathlib
import SmallLisp.Proofs.Execution
import SmallLisp.Proofs.Lockstep

/-! # Effects of binding operations

A binding operation writes one name in one table of one frame. What every frame sees of the
name follows from where it meets that frame on its own chain. -/

namespace SmallLisp

open EvalM

variable {α β : Type}

namespace Store

/-! ## Nearest bindings -/

/-- The first of some frames that has a property. -/
def IsFirst (P : FrameId → Prop) (frames : List FrameId) (g : FrameId) : Prop :=
  ∃ inner outer, frames = inner ++ g :: outer ∧ P g ∧ ∀ h ∈ inner, ¬ P h

def Binds (s : Store) (ns : Namespace α) (name : String) (g : FrameId) : Prop :=
  ∃ x, (s.table ns g).get? name = some x

/-- The first of some frames that binds the name binds it to `x`. -/
def Nearest (s : Store) (ns : Namespace α) (name : String) (frames : List FrameId) (x : α) :
    Prop :=
  ∃ g, IsFirst (s.Binds ns name) frames g ∧ (s.table ns g).get? name = some x

/-- The nearest binding of the name on the chain from a frame. -/
def Sees (s : Store) (ns : Namespace α) (f : FrameId) (name : String) (x : α) : Prop :=
  s.Nearest ns name (s.chain f) x

/-- Where an update writes a variable: in the nearest frame that binds it, or in the frame
itself if none does. -/
def UpdatesIn (s : Store) (f : FrameId) (name : String) (t : FrameId) : Prop :=
  IsFirst (s.Binds .vars name) (s.chain f) t ∨ (∀ g ∈ s.chain f, ¬ s.Binds .vars name g) ∧ t = f

theorem isFirst_cons {P : FrameId → Prop} {frames : List FrameId} {g h : FrameId} :
    IsFirst P (g :: frames) h ↔ g = h ∧ P g ∨ ¬ P g ∧ IsFirst P frames h := by
  constructor
  · rintro ⟨inner, outer, hsplit, hh, hinner⟩
    cases inner with
    | nil =>
      obtain ⟨rfl, -⟩ := List.cons.inj hsplit
      exact .inl ⟨rfl, hh⟩
    | cons k inner =>
      obtain ⟨rfl, rfl⟩ := List.cons.inj hsplit
      rw [List.forall_mem_cons] at hinner
      exact .inr ⟨hinner.1, inner, outer, rfl, hh, hinner.2⟩
  · rintro (⟨rfl, hg⟩ | ⟨hg, inner, outer, rfl, hh, hinner⟩)
    · exact ⟨[], frames, rfl, hg, fun _ hk => absurd hk List.not_mem_nil⟩
    · exact ⟨g :: inner, outer, rfl, hh, List.forall_mem_cons.2 ⟨hg, hinner⟩⟩

theorem isFirst_congr {P Q : FrameId → Prop} {frames : List FrameId} {g : FrameId}
    (h : ∀ k, P k ↔ Q k) : IsFirst P frames g ↔ IsFirst Q frames g := by
  rw [show P = Q from funext fun k => propext (h k)]

theorem not_isFirst_nil {P : FrameId → Prop} {h : FrameId} : ¬ IsFirst P [] h := by
  rintro ⟨inner, outer, hsplit, -⟩
  cases inner <;> cases hsplit

section

variable {s s' : Store} {ns : Namespace α} {other : Namespace β} {name : String} {x : α}
  {f g t : FrameId} {frames : List FrameId}

theorem not_binds_iff : ¬ s.Binds ns name g ↔ (s.table ns g).get? name = none := by
  rw [Binds, not_exists, Option.eq_none_iff_forall_ne_some]

theorem contains_iff_binds : (s.table ns g).contains name = true ↔ s.Binds ns name g :=
  Option.isSome_iff_exists

theorem not_nearest_nil : ¬ s.Nearest ns name [] x := by
  rintro ⟨g, hfirst, -⟩
  exact not_isFirst_nil hfirst

theorem nearest_cons : s.Nearest ns name (g :: frames) x ↔
    (s.table ns g).get? name = some x ∨ ¬ s.Binds ns name g ∧ s.Nearest ns name frames x := by
  constructor
  · rintro ⟨h, hfirst, hx⟩
    rcases isFirst_cons.1 hfirst with ⟨rfl, -⟩ | ⟨hg, hfirst⟩
    · exact .inl hx
    · exact .inr ⟨hg, h, hfirst, hx⟩
  · rintro (hx | ⟨hg, h, hfirst, hx⟩)
    · exact ⟨g, isFirst_cons.2 (.inl ⟨rfl, x, hx⟩), hx⟩
    · exact ⟨h, isFirst_cons.2 (.inr ⟨hg, hfirst⟩), hx⟩

theorem nearest_iff_findSome? :
    s.Nearest ns name frames x ↔ (frames.findSome? fun g => (s.table ns g).get? name) = some x := by
  induction frames with
  | nil => simp [not_nearest_nil]
  | cons g frames ih =>
    rw [nearest_cons, not_binds_iff, ih, List.findSome?_cons]
    cases (s.table ns g).get? name <;> simp

/-- A look-up finds what is seen. -/
theorem sees_iff : s.Sees ns f name x ↔ s.get? ns f name = some x :=
  nearest_iff_findSome?

theorem get?_eq_none_of_not_sees (h : ∀ x, ¬ s.Sees ns f name x) : s.get? ns f name = none :=
  Option.eq_none_iff_forall_ne_some.2 fun x hx => h x (sees_iff.2 hx)

/-- An update writes in the owner of the name, or else in the frame itself. -/
theorem updatesIn_owner? : s.UpdatesIn f name ((s.owner? .vars f name).getD f) := by
  cases howner : s.owner? .vars f name with
  | none =>
    refine .inr ⟨fun g hg hbinds => ?_, rfl⟩
    exact List.find?_eq_none.1 howner g hg (contains_iff_binds.2 hbinds)
  | some t =>
    obtain ⟨ht, inner, outer, hsplit, hinner⟩ := List.find?_eq_some_iff_append.1 howner
    refine .inl ⟨inner, outer, hsplit, contains_iff_binds.1 ht, fun h hh hbinds => ?_⟩
    have hnot := hinner h hh
    rw [contains_iff_binds.2 hbinds] at hnot
    cases hnot

/-! ## Writing one name -/

/-- In one table of the frame `t`, the name is bound to a value or to nothing; all else
stays as it is. -/
structure Writes (ns : Namespace α) (other : Namespace β) (t : FrameId) (name : String)
    (value : Option α) (s s' : Store) : Prop where
  size : s'.frames.size = s.frames.size
  outer : ∀ g : FrameId, s'.frames[g]?.map Frame.outer = s.frames[g]?.map Frame.outer
  written : (s'.table ns t).get? name = value
  spared : ∀ g m, g ≠ t ∨ m ≠ name → (s'.table ns g).get? m = (s.table ns g).get? m
  apart : ∀ g, s'.table other g = s.table other g

end

end Store

/-- A change of the one table of a frame is a change of nothing else. -/
structure Namespace.Apart (ns : Namespace α) (other : Namespace β) : Prop where
  table_change : ∀ op frame, ns.table (ns.change op frame) = op (ns.table frame)
  other_change : ∀ op frame, other.table (ns.change op frame) = other.table frame
  outer_change : ∀ op frame, (ns.change op frame).outer = frame.outer

theorem Namespace.apart_vars : Namespace.vars.Apart Namespace.procs :=
  ⟨fun _ _ => rfl, fun _ _ => rfl, fun _ _ => rfl⟩

theorem Namespace.apart_procs : Namespace.procs.Apart Namespace.vars :=
  ⟨fun _ _ => rfl, fun _ _ => rfl, fun _ _ => rfl⟩

namespace Store

variable {s s' : Store} {ns : Namespace α} {other : Namespace β} {name : String}
  {f g t : FrameId} {frames : List FrameId}

theorem table_change_self (h : ns.Apart other) (ht : t < s.frames.size)
    (op : Table α → Table α) : (s.change ns t op).table ns t = op (s.table ns t) := by
  rw [table_eq, table_eq, frames_change, if_pos rfl, Array.getElem?_eq_getElem ht]
  exact h.table_change op _

theorem table_change_of_ne (op : Table α → Table α) (h : t ≠ g) :
    (s.change ns t op).table ns g = s.table ns g :=
  table_congr ns (s.frames_change_of_ne ns op h)

/-- The other tables stay as they are. -/
theorem table_change_apart (h : ns.Apart other) (s : Store) (t g : FrameId)
    (op : Table α → Table α) : (s.change ns t op).table other g = s.table other g := by
  rw [table_eq, table_eq, frames_change]
  split
  · cases s.frames[g]? with
    | none => rfl
    | some frame => exact h.other_change op frame
  · rfl

theorem outer_change (h : ns.Apart other) (s : Store) (t g : FrameId) (op : Table α → Table α) :
    (s.change ns t op).frames[g]?.map Frame.outer = s.frames[g]?.map Frame.outer := by
  rw [frames_change]
  split
  · cases s.frames[g]? with
    | none => rfl
    | some frame => exact congrArg some (h.outer_change op frame)
  · rfl

/-- An operation that rebinds one name, on the table of a frame that is there. -/
theorem writes_change (h : ns.Apart other) (ht : t < s.frames.size) {value : Option α}
    {op : Table α → Table α}
    (hop : ∀ table m, (op table).get? m = if m = name then value else table.get? m) :
    Writes ns other t name value s (s.change ns t op) where
  size := s.size_change ns t op
  outer g := outer_change h s t g op
  written := by rw [table_change_self h ht, hop, if_pos rfl]
  spared g m hm := by
    by_cases hg : t = g
    · subst hg
      rw [table_change_self h ht, hop, if_neg (hm.resolve_left (absurd rfl))]
    · rw [table_change_of_ne op hg]
  apart g := table_change_apart h s t g op

theorem writes_set (h : ns.Apart other) (ht : t < s.frames.size) (value : α) :
    Writes ns other t name (some value) s (s.set ns t name value) :=
  writes_change h ht fun table m => table.get?_set name value m

theorem writes_erase (h : ns.Apart other) (ht : t < s.frames.size) :
    Writes ns other t name none s (s.erase ns t name) :=
  writes_change h ht fun table m => table.get?_erase name m

/-! ## What is seen afterwards -/

/-- Other names, and the names in the other tables, are seen as before. -/
def Spares (ns : Namespace α) (other : Namespace β) (name : String) (s s' : Store) : Prop :=
  (∀ g m x, m ≠ name → (s'.Sees ns g m x ↔ s.Sees ns g m x)) ∧
    ∀ g m x, s'.Sees other g m x ↔ s.Sees other g m x

/-- Where the first frame that is `t` or binds the name is `t`, its new value is seen, and
elsewhere what was seen before. -/
def Covers (ns : Namespace α) (t : FrameId) (name : String) (x : α) (s s' : Store) : Prop :=
  ∀ g y,
    (IsFirst (fun h => h = t ∨ s.Binds ns name h) (s.chain g) t →
      (s'.Sees ns g name y ↔ y = x)) ∧
    (¬ IsFirst (fun h => h = t ∨ s.Binds ns name h) (s.chain g) t →
      (s'.Sees ns g name y ↔ s.Sees ns g name y))

/-- Where the nearest binding was that of `t`, the next one outward is seen, and elsewhere
what was seen before. -/
def Uncovers (ns : Namespace α) (t : FrameId) (name : String) (s s' : Store) : Prop :=
  ∀ g y,
    (∀ inner outer, s.chain g = inner ++ t :: outer → s.Binds ns name t →
      (∀ h ∈ inner, ¬ s.Binds ns name h) →
        (s'.Sees ns g name y ↔ s.Nearest ns name outer y)) ∧
    (¬ IsFirst (s.Binds ns name) (s.chain g) t → (s'.Sees ns g name y ↔ s.Sees ns g name y))

theorem nearest_congr {x : α}
    (h : ∀ g ∈ frames, (s'.table ns g).get? name = (s.table ns g).get? name) :
    s'.Nearest ns name frames x ↔ s.Nearest ns name frames x := by
  rw [nearest_iff_findSome?, nearest_iff_findSome?, findSome?_congr h]

/-- Frames that do not bind the name are passed over. -/
theorem nearest_append {inner : List FrameId} {x : α} (h : ∀ g ∈ inner, ¬ s.Binds ns name g) :
    s.Nearest ns name (inner ++ frames) x ↔ s.Nearest ns name frames x := by
  induction inner with
  | nil => rfl
  | cons g inner ih =>
    rw [List.forall_mem_cons] at h
    rw [List.cons_append, nearest_cons, not_binds_iff.1 h.1, ih h.2]
    simp [h.1]

namespace Writes

variable {value : Option α} (h : Writes ns other t name value s s')
include h

theorem chain_eq (g : FrameId) : s'.chain g = s.chain g :=
  chain_eq_of_outer h.outer g

/-- The chains are the same, so that only the tables on them count. -/
theorem sees_iff_nearest {γ : Type} {ns : Namespace γ} {m : String} {x : γ} :
    s'.Sees ns g m x ↔ s'.Nearest ns m (s.chain g) x := by
  rw [Sees, h.chain_eq]

theorem spares : Spares ns other name s s' := by
  constructor
  · intro g m x hm
    exact h.sees_iff_nearest.trans (nearest_congr fun k _ => h.spared k m (.inr hm))
  · intro g m x
    exact h.sees_iff_nearest.trans (nearest_congr fun k _ => by rw [h.apart])

theorem binds_of_ne (hg : g ≠ t) : s'.Binds ns name g ↔ s.Binds ns name g := by
  rw [Binds, Binds, h.spared g name (.inl hg)]

/-- Unless `t` is the first that binds the name, before or after, nothing else is seen. -/
theorem nearest_iff {y : α}
    (hfirst : ¬ IsFirst (fun k => s.Binds ns name k ∨ s'.Binds ns name k) frames t) :
    s'.Nearest ns name frames y ↔ s.Nearest ns name frames y := by
  induction frames with
  | nil => simp only [not_nearest_nil]
  | cons k frames ih =>
    rw [isFirst_cons, not_or, not_and, not_and] at hfirst
    rw [nearest_cons, nearest_cons]
    by_cases hk : k = t
    · subst hk
      have hneither := hfirst.1 rfl
      have hrest := ih (hfirst.2 hneither)
      rw [not_or] at hneither
      simp only [hneither, not_binds_iff.1 hneither.1, not_binds_iff.1 hneither.2, hrest]
    · rw [h.spared k name (.inl hk), h.binds_of_ne hk]
      by_cases hbinds : s.Binds ns name k
      · simp only [hbinds, not_true_eq_false, false_and, or_false]
      · rw [ih (hfirst.2 (by simp [hbinds, h.binds_of_ne hk]))]

end Writes

theorem Writes.covers {x : α} (h : Writes ns other t name (some x) s s') :
    Covers ns t name x s s' := by
  intro g y
  have hbinds : s'.Binds ns name t := ⟨x, h.written⟩
  rw [h.sees_iff_nearest]
  constructor
  · rintro ⟨inner, outer, hsplit, -, hinner⟩
    have hpassed : ∀ k ∈ inner, ¬ s'.Binds ns name k := by
      intro k hk
      obtain ⟨hne, hnot⟩ := not_or.1 (hinner k hk)
      rwa [h.binds_of_ne hne]
    rw [hsplit, nearest_append hpassed, nearest_cons, h.written]
    simp only [hbinds, not_true_eq_false, false_and, or_false, Option.some.injEq, eq_comm]
  · intro hfirst
    apply h.nearest_iff
    rwa [isFirst_congr fun k => ?_]
    by_cases hk : k = t
    · simp only [hk, hbinds, or_true, true_or]
    · simp only [h.binds_of_ne hk, or_self, hk, false_or]

theorem Writes.uncovers (h : Writes ns other t name none s s') : Uncovers ns t name s s' := by
  intro g y
  have hnone : ¬ s'.Binds ns name t := not_binds_iff.2 h.written
  have hless : ∀ k, s'.Binds ns name k → k ≠ t ∧ s.Binds ns name k := by
    intro k hk
    have hne : k ≠ t := by
      rintro rfl
      exact hnone hk
    exact ⟨hne, (h.binds_of_ne hne).1 hk⟩
  rw [h.sees_iff_nearest]
  constructor
  · intro inner outer hsplit _ hinner
    have houter : t ∉ outer := by
      have hnodup := s.nodup_chain g
      rw [hsplit] at hnodup
      exact (List.nodup_cons.1 (List.nodup_append.1 hnodup).2.1).1
    rw [hsplit, nearest_append fun k hk hbinds => hinner k hk (hless k hbinds).2, nearest_cons,
      h.written]
    simp only [hnone, not_false_eq_true, true_and, reduceCtorEq, false_or]
    exact nearest_congr fun k hk => h.spared k name (.inl (ne_of_mem_of_not_mem hk houter))
  · intro hfirst
    apply h.nearest_iff
    rwa [isFirst_congr fun k => or_iff_left_of_imp fun hk => (hless k hk).2]

end Store

/-! ## Look-ups -/

/-- What a name stands for in a frame. As a symbol, any variable comes before any procedure.
In front of arguments, any procedure comes first, and the nearest variable counts only if it
holds a function. -/
structure World.Resolves (w : World) (f : FrameId) (name : String) : Prop where
  variable_value : ∀ x, w.store.Sees .vars f name x → valueOf f name w = .ok x w
  procedure_value : (∀ x, ¬ w.store.Sees .vars f name x) → ∀ p, w.store.Sees .procs f name p →
    valueOf f name w = .ok p.toValue w
  no_value : (∀ x, ¬ w.store.Sees .vars f name x) → (∀ p, ¬ w.store.Sees .procs f name p) →
    valueOf f name w = .error (.error (.undeclared name)) w
  procedure_function : ∀ p, w.store.Sees .procs f name p → functionOf f name w = .ok p w
  variable_function : (∀ p, ¬ w.store.Sees .procs f name p) → ∀ x p,
    w.store.Sees .vars f name x → x.function? = some p → functionOf f name w = .ok p w
  no_function : (∀ p, ¬ w.store.Sees .procs f name p) →
    (∀ x, w.store.Sees .vars f name x → x.function? = none) →
    functionOf f name w = .error (.error (.noFunction name)) w

theorem World.resolves (w : World) (f : FrameId) (name : String) : w.Resolves f name where
  variable_value x hx := by
    rw [valueOf_eq, Store.value?, Store.sees_iff.1 hx]
  procedure_value hvars p hp := by
    rw [valueOf_eq, Store.value?, Store.get?_eq_none_of_not_sees hvars, Store.sees_iff.1 hp]
    rfl
  no_value hvars hprocs := by
    rw [valueOf_eq, Store.value?, Store.get?_eq_none_of_not_sees hvars,
      Store.get?_eq_none_of_not_sees hprocs]
    rfl
  procedure_function p hp := by
    rw [functionOf_eq, Store.function?, Store.sees_iff.1 hp]
  variable_function hprocs x p hx hfunction := by
    rw [functionOf_eq, Store.function?, Store.get?_eq_none_of_not_sees hprocs,
      Store.sees_iff.1 hx]
    dsimp only [Option.bind_some]
    rw [hfunction]
  no_function hprocs hvars := by
    have hnone : (w.store.get? .vars f name).bind Value.function? = none := by
      cases hx : w.store.get? .vars f name with
      | none => rfl
      | some x => exact hvars x (Store.sees_iff.2 hx)
    rw [functionOf_eq, Store.function?, Store.get?_eq_none_of_not_sees hprocs]
    dsimp only
    rw [hnone]

/-! ## Binding operations -/

/-- A world after one name was written in one table of a frame: nothing else of the world is
changed, and what is seen from each frame follows from its chain. -/
structure World.Rebinds (ns : Namespace α) (other : Namespace β) (t : FrameId) (name : String)
    (value : Option α) (w u : World) : Prop where
  world : u = { w with store := u.store }
  writes : Store.Writes ns other t name value w.store u.store
  spares : Store.Spares ns other name w.store u.store
  covers : ∀ x, value = some x → Store.Covers ns t name x w.store u.store
  uncovers : value = none → Store.Uncovers ns t name w.store u.store
  lookups : ∀ g m, m ≠ name → outcome (valueOf g m) u = outcome (valueOf g m) w ∧
    outcome (functionOf g m) u = outcome (functionOf g m) w

theorem World.lookups_of_get? {w u : World} {g : FrameId} {m : String}
    (hvars : u.store.get? .vars g m = w.store.get? .vars g m)
    (hprocs : u.store.get? .procs g m = w.store.get? .procs g m) :
    outcome (valueOf g m) u = outcome (valueOf g m) w ∧
      outcome (functionOf g m) u = outcome (functionOf g m) w := by
  rw [outcome, outcome, outcome, outcome, valueOf_eq, valueOf_eq, functionOf_eq, functionOf_eq]
  rw [Store.value?, Store.value?, Store.function?, Store.function?, hvars, hprocs]
  constructor
  · cases w.store.get? .vars g m with
    | some x => rfl
    | none => cases w.store.get? .procs g m <;> rfl
  · cases w.store.get? .procs g m with
    | some p => rfl
    | none => cases (w.store.get? .vars g m).bind Value.function? <;> rfl

theorem Store.get?_eq_of_sees_iff {s s' : Store} {ns : Namespace α} {g : FrameId} {m : String}
    (h : ∀ x, s'.Sees ns g m x ↔ s.Sees ns g m x) : s'.get? ns g m = s.get? ns g m := by
  ext x
  rw [← Store.sees_iff, ← Store.sees_iff, h]

/-- To write the name is all that happens. -/
theorem World.rebinds {w : World} {ns : Namespace α} {other : Namespace β} {t : FrameId}
    {name : String} {value : Option α} {s : Store}
    (h : Store.Writes ns other t name value w.store s)
    (hothers : ∀ g m, m ≠ name → (∀ x, s.Sees .vars g m x ↔ w.store.Sees .vars g m x) ∧
      ∀ p, s.Sees .procs g m p ↔ w.store.Sees .procs g m p) :
    Rebinds ns other t name value w { w with store := s } where
  world := rfl
  writes := h
  spares := h.spares
  covers _ hx := Store.Writes.covers (hx ▸ h)
  uncovers hnone := Store.Writes.uncovers (hnone ▸ h)
  lookups g m hm :=
    lookups_of_get? (Store.get?_eq_of_sees_iff (hothers g m hm).1)
      (Store.get?_eq_of_sees_iff (hothers g m hm).2)

theorem World.rebinds_vars {w : World} {t : FrameId} {name : String} {value : Option Value}
    {s : Store} (h : Store.Writes .vars .procs t name value w.store s) :
    Rebinds .vars .procs t name value w { w with store := s } :=
  rebinds h fun g m hm => ⟨fun x => h.spares.1 g m x hm, h.spares.2 g m⟩

theorem World.rebinds_procs {w : World} {t : FrameId} {name : String} {value : Option Function}
    {s : Store} (h : Store.Writes .procs .vars t name value w.store s) :
    Rebinds .procs .vars t name value w { w with store := s } :=
  rebinds h fun g m hm => ⟨h.spares.2 g m, fun p => h.spares.1 g m p hm⟩

/-- An update writes the variable in the nearest frame that binds it, or in the frame itself;
the other operations write in the frame itself. Each of them always succeeds, changes nothing
else, and is seen from every frame as far as no nearer binding hides it. A look-up of a symbol
prefers variables, and that of a name to call prefers procedures. -/
theorem binding_effects {w : World} {f : FrameId} (hf : f < w.size) (name : String) (v : Value)
    (p : Function) :
    ∃ t, w.store.UpdatesIn f name t ∧
      (∃ u, updateVariable f name v w = .ok () u ∧
        World.Rebinds .vars .procs t name (some v) w u) ∧
      (∃ u, setVariable f name v w = .ok () u ∧
        World.Rebinds .vars .procs f name (some v) w u) ∧
      (∃ u, eraseVariable f name w = .ok () u ∧
        World.Rebinds .vars .procs f name none w u) ∧
      (∃ u, defineProcedure f name p w = .ok () u ∧
        World.Rebinds .procs .vars f name (some p) w u) ∧
      ∀ (u : World) (g : FrameId) (m : String), u.Resolves g m := by
  have ht : (w.store.owner? .vars f name).getD f < w.size := by
    cases howner : w.store.owner? .vars f name with
    | none => exact hf
    | some t => exact Store.lt_size_of_mem_chain (Store.owner?_eq_some howner).1
  refine ⟨_, Store.updatesIn_owner?, ?update, ?set, ?erase, ?define, World.resolves⟩
  case update => exact ⟨_, rfl, World.rebinds_vars (Store.writes_set Namespace.apart_vars ht v)⟩
  case set => exact ⟨_, rfl, World.rebinds_vars (Store.writes_set Namespace.apart_vars hf v)⟩
  case erase => exact ⟨_, rfl, World.rebinds_vars (Store.writes_erase Namespace.apart_vars hf)⟩
  case define => exact ⟨_, rfl, World.rebinds_procs (Store.writes_set Namespace.apart_procs hf p)⟩

/-- An update inside changes the variable of the outer frame. -/
theorem binding_effects_outer :
    let s := ((Store.bare.set .vars Store.root "x" (.int 1)).makeChild Store.root).2
    let w := { World.bare with store := s }
    1 < w.size ∧ ∃ u, updateVariable 1 "x" (.int 10) w = .ok () u ∧
      u.store.Sees .vars Store.root "x" (.int 10) := by
  intro s w
  have hsize : 1 < w.size := by decide
  obtain ⟨t, ht, ⟨u, hrun, hu⟩, -⟩ :=
    binding_effects hsize "x" (.int 10) (.builtin .head)
  refine ⟨hsize, u, hrun, ?_⟩
  have hroot : w.store.chain Store.root = [Store.root] := by
    rw [Store.chain_root]
    rfl
  have hchild : w.store.chain 1 = [1, Store.root] := by
    rw [Store.chain_of_some (show w.store.frames[1]? = some (.inside (some Store.root)) from rfl)]
    exact congrArg _ hroot
  have hbinds : w.store.Binds .vars "x" Store.root := ⟨.int 1, rfl⟩
  have hnot : ¬ w.store.Binds .vars "x" 1 := Store.not_binds_iff.2 rfl
  have hone : t = Store.root := by
    rw [Store.UpdatesIn, hchild, Store.isFirst_cons, Store.isFirst_cons] at ht
    simpa [hnot, hbinds, Store.not_isFirst_nil, eq_comm] using ht
  subst hone
  refine ((hu.covers _ rfl Store.root _).1 ?_).2 rfl
  rw [hroot]
  exact Store.isFirst_cons.2 (.inl ⟨rfl, .inl rfl⟩)

end SmallLisp
