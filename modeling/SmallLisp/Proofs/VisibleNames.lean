import SmallLisp.Interpreter
import SmallLisp.Proofs.BindingEffects
import SmallLisp.Proofs.FrameEffects

/-! # Visible names

The flattened view of the frames around a form lists every name in sight once, where the
innermost frame that binds it has it, and gives it the value that a look-up finds. The
procedures that list what is in sight go by the order of the names alone. -/

namespace SmallLisp

open EvalM

namespace Table

variable {α : Type} {t : Table α} {name : String}

theorem isSome_findEntry_iff {entries : List (String × α)} :
    (findEntry name entries).isSome = true ↔ name ∈ entries.map Prod.fst := by
  induction entries with
  | nil => simp [findEntry]
  | cons entry rest ih =>
    by_cases h : entry.1 = name
    · simp [findEntry, h]
    · simp [findEntry, h, Ne.symm h, ih]

theorem contains_iff_mem_keys : t.contains name = true ↔ name ∈ t.keys :=
  isSome_findEntry_iff

end Table

namespace Store

variable {α : Type} {s : Store} {ns : Namespace α} {f g : FrameId} {name : String}
  {frames : List FrameId}

theorem binds_iff_mem_keys : s.Binds ns name g ↔ name ∈ (s.table ns g).keys :=
  contains_iff_binds.symm.trans Table.contains_iff_mem_keys

/-! ## Names without repetitions -/

theorem distinct_append (xs ys : List String) :
    distinct (xs ++ ys) = distinct xs ++ (distinct ys).filter (· ∉ xs) := by
  induction xs with
  | nil => simp [distinct]
  | cons x xs ih =>
    rw [List.cons_append, distinct, ih, distinct, List.filter_append, List.filter_filter,
      List.cons_append]
    simp only [List.mem_cons, not_or, Bool.decide_and, ne_eq]

theorem distinct_of_nodup {names : List String} (h : names.Nodup) : distinct names = names := by
  induction names with
  | nil => rfl
  | cons name rest ih =>
    obtain ⟨hname, hrest⟩ := List.nodup_cons.1 h
    rw [distinct, ih hrest, List.filter_eq_self.2]
    intro other hother
    exact decide_eq_true (ne_of_mem_of_not_mem hother hname)

/-! ## The order of names -/

/-- The first frame that binds `a` comes before the first that binds `b`, or is the same and
has `a` before `b`. -/
def BoundBefore (s : Store) (ns : Namespace α) (frames : List FrameId) (a b : String) : Prop :=
  ∃ g h, IsFirst (s.Binds ns a) frames g ∧ IsFirst (s.Binds ns b) frames h ∧
    ([g, h].Sublist frames ∨ g = h ∧ [a, b].Sublist (s.table ns g).keys)

theorem exists_isFirst {P : FrameId → Prop} (h : ∃ g ∈ frames, P g) :
    ∃ g, IsFirst P frames g := by
  induction frames with
  | nil =>
    obtain ⟨g, hg, -⟩ := h
    exact absurd hg List.not_mem_nil
  | cons k frames ih =>
    by_cases hk : P k
    · exact ⟨k, isFirst_cons.2 (.inl ⟨rfl, hk⟩)⟩
    · obtain ⟨g, hg, hP⟩ := h
      have hrest := (List.mem_cons.1 hg).resolve_left (by rintro rfl; exact hk hP)
      obtain ⟨g, hfirst⟩ := ih ⟨g, hrest, hP⟩
      exact ⟨g, isFirst_cons.2 (.inr ⟨hk, hfirst⟩)⟩

theorem IsFirst.mem {P : FrameId → Prop} (h : IsFirst P frames g) : g ∈ frames := by
  obtain ⟨inner, outer, rfl, -, -⟩ := h
  exact List.mem_append_right _ List.mem_cons_self

/-- A frame in front changes nothing for the names that it does not bind. -/
theorem BoundBefore.cons {a b : String} (h : s.BoundBefore ns frames a b)
    (ha : ¬ s.Binds ns a g) (hb : ¬ s.Binds ns b g) : s.BoundBefore ns (g :: frames) a b := by
  obtain ⟨k, l, hk, hl, hbefore⟩ := h
  refine ⟨k, l, isFirst_cons.2 (.inr ⟨ha, hk⟩), isFirst_cons.2 (.inr ⟨hb, hl⟩), ?_⟩
  exact hbefore.imp_left (List.Sublist.cons g)

/-- The names of some frames, each once, are in the order in which they are bound. -/
theorem pairwise_distinct_keys (s : Store) (ns : Namespace α) (frames : List FrameId) :
    (distinct (frames.flatMap fun g => (s.table ns g).keys)).Pairwise
      (s.BoundBefore ns frames) := by
  induction frames with
  | nil => exact List.Pairwise.nil
  | cons g frames ih =>
    have hfirst : ∀ {name}, name ∈ (s.table ns g).keys →
        IsFirst (s.Binds ns name) (g :: frames) g := fun hname =>
      isFirst_cons.2 (.inl ⟨rfl, binds_iff_mem_keys.2 hname⟩)
    have hrest : ∀ {name}, decide (name ∉ (s.table ns g).keys) = true → ¬ s.Binds ns name g :=
      fun hname => mt binds_iff_mem_keys.1 (of_decide_eq_true hname)
    have hdistinct : distinct (s.table ns g).keys = (s.table ns g).keys :=
      distinct_of_nodup (s.table ns g).nodup
    rw [List.flatMap_cons, distinct_append, hdistinct, List.pairwise_append]
    refine ⟨?inner, ?outer, ?across⟩
    case inner =>
      rw [List.pairwise_iff_forall_sublist]
      intro a b hsub
      have hab := hsub.subset
      exact ⟨g, g, hfirst (hab List.mem_cons_self),
        hfirst (hab (List.mem_cons_of_mem a List.mem_cons_self)), .inr ⟨rfl, hsub⟩⟩
    case outer =>
      rw [List.pairwise_filter]
      exact ih.imp fun h ha hb => h.cons (hrest ha) (hrest hb)
    case across =>
      intro a ha b hb
      obtain ⟨hmem, hnot⟩ := List.mem_filter.1 hb
      obtain ⟨h, hh, hbinds⟩ := List.mem_flatMap.1 (mem_distinct.1 hmem)
      obtain ⟨h, hh⟩ := exists_isFirst ⟨h, hh, binds_iff_mem_keys.2 hbinds⟩
      refine ⟨g, h, hfirst ha, isFirst_cons.2 (.inr ⟨hrest hnot, hh⟩), .inl ?_⟩
      exact (List.singleton_sublist.2 hh.mem).cons_cons g

/-! ## The flattened view -/

/-- The names in sight from a frame and their values, as they are listed, agree with the
look-up of single names. -/
structure ListsInSight (s : Store) (ns : Namespace α) (f : FrameId) : Prop where
  mem_names : ∀ name, name ∈ s.names ns f ↔ ∃ g ∈ s.chain f, name ∈ (s.table ns g).keys
  nodup : (s.names ns f).Nodup
  ordered : (s.names ns f).Pairwise (s.BoundBefore ns (s.chain f))
  owned : ∀ name, (s.owner? ns f name).isSome = true ↔ name ∈ s.names ns f
  get?_eq : ∀ name,
    s.get? ns f name = (s.owner? ns f name).bind fun g => (s.table ns g).get? name
  visible : (s.visible ns f).map (fun entry => (entry.1, some entry.2)) =
    (s.names ns f).map fun name => (name, s.get? ns f name)

theorem mem_names_iff :
    name ∈ s.names ns f ↔ ∃ g ∈ s.chain f, name ∈ (s.table ns g).keys := by
  rw [names, mem_distinct, List.mem_flatMap]

theorem isSome_owner?_iff : (s.owner? ns f name).isSome = true ↔ name ∈ s.names ns f := by
  rw [owner?, List.find?_isSome, mem_names_iff]
  simp only [Table.contains_iff_mem_keys]

theorem findSome?_eq_bind {β γ : Type} (p : β → Option γ) (l : List β) :
    l.findSome? p = (l.find? fun b => (p b).isSome).bind p := by
  induction l with
  | nil => rfl
  | cons b l ih =>
    rw [List.findSome?_cons, List.find?_cons]
    cases hb : p b with
    | none => exact ih
    | some c => exact hb.symm

theorem get?_eq_bind_owner? (name : String) :
    s.get? ns f name = (s.owner? ns f name).bind fun g => (s.table ns g).get? name :=
  findSome?_eq_bind _ _

theorem isSome_get?_of_mem (h : name ∈ s.names ns f) : (s.get? ns f name).isSome = true := by
  obtain ⟨g, hg⟩ := Option.isSome_iff_exists.1 (isSome_owner?_iff.2 h)
  rw [get?_eq_bind_owner?, hg]
  exact (owner?_eq_some hg).2

theorem map_filterMap_some {β γ : Type} {p : β → Option γ} {l : List β}
    (h : ∀ b ∈ l, (p b).isSome = true) :
    (l.filterMap fun b => (p b).map fun c => (b, c)).map (fun entry => (entry.1, some entry.2)) =
      l.map fun b => (b, p b) := by
  induction l with
  | nil => rfl
  | cons b l ih =>
    obtain ⟨hb, hl⟩ := List.forall_mem_cons.1 h
    obtain ⟨c, hc⟩ := Option.isSome_iff_exists.1 hb
    rw [List.filterMap_cons, hc, List.map_cons, ← ih hl, hc]
    rfl

theorem listsInSight (s : Store) (ns : Namespace α) (f : FrameId) : s.ListsInSight ns f where
  mem_names _ := mem_names_iff
  nodup := nodup_distinct _
  ordered := s.pairwise_distinct_keys ns (s.chain f)
  owned _ := isSome_owner?_iff
  get?_eq := get?_eq_bind_owner?
  visible := map_filterMap_some fun _ => isSome_get?_of_mem

theorem map_fst_visible (s : Store) (ns : Namespace α) (f : FrameId) :
    (s.visible ns f).map Prod.fst = s.names ns f := by
  have h := congrArg (List.map Prod.fst) (s.listsInSight ns f).visible
  rw [List.map_map, List.map_map] at h
  exact h.trans (List.map_id _)

end Store

/-! ## The order of lines -/

/-- Sorting by names that are all different leaves them strictly ordered. -/
theorem pairwise_mergeSort_key {β : Type} (key : β → String) {xs : List β}
    (h : (xs.map key).Nodup) :
    (xs.mergeSort fun a b => key a ≤ key b).Pairwise fun a b => key a < key b := by
  have hsorted : (xs.mergeSort fun a b => key a ≤ key b).Pairwise
      fun a b => decide (key a ≤ key b) = true :=
    List.pairwise_mergeSort
      (fun a b c hab hbc => by simp only [decide_eq_true_eq] at *; exact le_trans hab hbc)
      (fun a b => by simp only [Bool.or_eq_true, decide_eq_true_eq]; exact le_total _ _) xs
  have hne : (xs.mergeSort fun a b => key a ≤ key b).Pairwise fun a b => key a ≠ key b :=
    List.pairwise_map.1 (((List.mergeSort_perm xs _).map key).nodup_iff.2 h)
  exact hsorted.imp₂ (fun a b hle hne => lt_of_le_of_ne (of_decide_eq_true hle) hne) hne

/-- Does one entry come before another? Entries are compared by their names and, if these are
the same, by their values, a comparison that may fail. -/
def compareEntries {α ε : Type} (compareValues : α → α → Except ε Bool) (a b : String × α) :
    Except ε Bool :=
  if a.1 = b.1 then compareValues a.2 b.2 else .ok (a.1 < b.1)

/-- No two entries in sight have to be compared by their values. -/
def Store.OrderedByName {α : Type} (s : Store) (ns : Namespace α) (f : FrameId) : Prop :=
  ∀ {ε : Type} (compareValues : α → α → Except ε Bool),
    (s.visible ns f).Pairwise fun a b =>
      compareEntries compareValues a b = .ok (a.1 < b.1) ∧
        compareEntries compareValues b a = .ok (b.1 < a.1)

theorem Store.orderedByName {α : Type} (s : Store) (ns : Namespace α) (f : FrameId) :
    s.OrderedByName ns f := by
  intro ε compareValues
  have hne : (s.visible ns f).Pairwise fun a b => a.1 ≠ b.1 := by
    rw [← List.pairwise_map (R := (· ≠ ·)), map_fst_visible]
    exact nodup_distinct _
  exact hne.imp fun h => ⟨if_neg h, if_neg h.symm⟩

/-- The entries in sight, ordered by their names. -/
def Store.Lines {α : Type} (s : Store) (ns : Namespace α) (f : FrameId)
    (entries : List (String × α)) : Prop :=
  entries.Perm (s.visible ns f) ∧ entries.Pairwise fun a b => a.1 < b.1

theorem Store.lines_sortEntries {α : Type} (s : Store) (ns : Namespace α) (f : FrameId) :
    s.Lines ns f (sortEntries (s.visible ns f)) := by
  refine ⟨List.mergeSort_perm _ _, pairwise_mergeSort_key Prod.fst ?_⟩
  rw [map_fst_visible]
  exact nodup_distinct _

/-! ## Listing -/

/-- The world with more events in its journal. -/
def World.recording (w : World) (events : List Event) : World :=
  { w with journal := w.journal ++ events.toArray }

theorem World.recording_cons (w : World) (event : Event) (events : List Event) :
    ({ w with journal := w.journal.push event } : World).recording events =
      w.recording (event :: events) := by
  simp [recording]

theorem noteNames_eq (names : List String) (w : World) :
    noteNames names w =
      .ok () (w.recording (names.map fun name => .noted (.procedureListed name))) := by
  induction names generalizing w with
  | nil => simp [noteNames, World.recording]; rfl
  | cons name names ih =>
    rw [List.map_cons, ← World.recording_cons]
    exact ih _

theorem writeAll_eq (lines : List String) (w : World) :
    writeAll lines w = .ok () (w.recording (lines.map .wrote)) := by
  induction lines generalizing w with
  | nil => simp [writeAll, World.recording]; rfl
  | cons line lines ih =>
    rw [List.map_cons, ← World.recording_cons]
    exact ih _

theorem listProcedures_eq (f : FrameId) (w : World) :
    listProcedures f w = .ok (.list ((sortNames (w.store.names .procs f)).map .string))
      (w.recording ((sortNames (w.store.names .procs f)).map fun name =>
        .noted (.procedureListed name))) := by
  rw [listProcedures, bind_of_ok (get_eq w), bind_of_ok (noteNames_eq _ w)]
  rfl

theorem showBindings_eq (f : FrameId) (w : World) :
    showBindings f w = .ok .nil (w.recording ((bindingLines w.store f).map .wrote)) := by
  rw [showBindings, bind_of_ok (get_eq w), bind_of_ok (writeAll_eq _ w)]
  rfl

/-- The call of a procedure that runs in the frame of its caller is noted first. -/
theorem apply_inCallerFrame (m : Machine) (fuel : Nat) {b : Builtin} (args : List Value)
    (f : FrameId) (w : World) (hin : b.inCallerFrame = true) :
    (Evaluator.ofFuel m (fuel + 1)).apply (.builtin b) args f w =
      (Evaluator.ofFuel m fuel).performBuiltin b args f
        { w with journal := w.journal.push (.noted (.nativeCalled b.name args.length)) } := by
  have hin' : (Function.builtin b).inCallerFrame = true := hin
  simp only [Evaluator.apply, Evaluator.applyNative, hin', if_true]
  rfl

/-- From any frame, the names of procedures and variables in sight are listed as single
look-ups find them, and their order is one of names alone. Called in the frame, one procedure
gives the names of the procedures in their order, before the result is folded, and another
writes a line for each procedure and each variable, with the value that a look-up finds. -/
theorem bindings_in_sight (m : Machine) (fuel : Nat) (args : List Value) (f : FrameId)
    (w : World) :
    (∀ {α : Type} (ns : Namespace α), w.store.ListsInSight ns f ∧ w.store.OrderedByName ns f) ∧
      (∃ names : List String,
        names.Perm (w.store.names .procs f) ∧ names.Pairwise (· < ·) ∧
        (Evaluator.ofFuel m (fuel + 1)).apply (.builtin .listProcedures) args f w =
          .ok (.list (names.map .string))
            (w.recording (.noted (.nativeCalled "internal.func.list" args.length) ::
              names.map fun name => .noted (.procedureListed name)))) ∧
      ∃ procs vars, w.store.Lines .procs f procs ∧ w.store.Lines .vars f vars ∧
        (Evaluator.ofFuel m (fuel + 1)).apply (.builtin .showBindings) args f w =
          .ok .nil (w.recording (.noted (.nativeCalled "internal.printenv" args.length) ::
            (procs.map fun entry => .wrote ("fn " ++ entry.1 ++ ": " ++ entry.2.text ++ "\n")) ++
            vars.map fun entry =>
              .wrote ("var " ++ entry.1 ++ ": " ++ entry.2.display ++ "\n"))) := by
  refine ⟨fun ns => ⟨w.store.listsInSight ns f, w.store.orderedByName ns f⟩, ?names, ?lines⟩
  case names =>
    refine ⟨sortNames (w.store.names .procs f), List.mergeSort_perm _ _, ?_, ?_⟩
    · have hnodup : ((w.store.names .procs f).map id).Nodup := by
        rw [List.map_id]
        exact Store.nodup_distinct _
      exact pairwise_mergeSort_key id hnodup
    · rw [apply_inCallerFrame m fuel args f w rfl, ← World.recording_cons]
      exact listProcedures_eq f _
  case lines =>
    refine ⟨_, _, w.store.lines_sortEntries .procs f, w.store.lines_sortEntries .vars f, ?_⟩
    rw [apply_inCallerFrame m fuel args f w rfl, List.cons_append, ← World.recording_cons]
    refine (showBindings_eq f _).trans ?_
    rw [bindingLines, List.map_append, List.map_map, List.map_map]
    rfl

end SmallLisp
