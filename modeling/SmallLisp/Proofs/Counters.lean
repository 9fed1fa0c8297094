import SmallLisp.Proofs.Execution
import SmallLisp.Proofs.FrameEffects

/-! # Counters

A closure that counts its calls keeps its count in the frame in which it was made. Each
counter has a frame of its own, which nothing but the closure leads to: a call finds the
count from two frames further in, changes it where it is, and leaves all other frames
alone. -/

namespace SmallLisp

open EvalM

/-! ## Programs -/

/-- The form `(def count (+ count 1))`. -/
def countUp : Value :=
  .list [.symbol "def", .symbol "count", .list [.symbol "+", .symbol "count", .int 1]]

/-- The form `((def count 0) (fn () (def count (+ count 1))))`. -/
def counterBody : Value :=
  .list [.list [.symbol "def", .symbol "count", .int 0],
    .list [.symbol "fn", .list [], countUp]]

/-- The form `(fn make-counter () ((def count 0) (fn () (def count (+ count 1)))))`. -/
def makeCounterForm : Value :=
  .list [.symbol "fn", .symbol "make-counter", .list [], counterBody]

/-- The form that sets a variable to a new counter. -/
def newCounterForm (name : String) : Value :=
  .list [.symbol "def", .symbol name, .list [.symbol "make-counter"]]

/-- The form that calls a counter. -/
def callForm (name : String) : Value := .list [.symbol name]

/-! ## Stores with counters -/

namespace Store

/-- The root frame binds no variable `count`, and has the procedures that counters use. -/
structure Counting (s : Store) : Prop where
  uncounted : (s.table .vars root).get? "count" = none
  define : (s.table .procs root).get? "def" = some (.builtin .define)
  function : (s.table .procs root).get? "fn" = some (.builtin .function)
  add : (s.table .procs root).get? "+" = some (.builtin (.arithmetic .add))

/-- The frame, which is not the root, lies directly in the root and holds a count. -/
structure HoldsCount (s : Store) (f : FrameId) (k : Int) : Prop where
  inner : root < f
  frame : ∃ vars, s.frames[f]? = some ⟨some root, vars, .empty⟩ ∧ vars.get? "count" = some (.int k)

/-- The variable is set to a counter that holds its count in the frame. -/
structure HasCounter (s : Store) (name : String) (f : FrameId) : Prop where
  unprocedured : (s.table .procs root).get? name = none
  closure : ∃ id, (s.table .vars root).get? name = some (.closure id anonymous [] countUp f)

variable {s t : Store} {f g : FrameId} {name : String} {k : Int}

theorem Counting.of_procs (h : s.Counting) (hvars : (t.table .vars root).get? "count" = none)
    (hprocs : ∀ name ≠ "make-counter",
      (t.table .procs root).get? name = (s.table .procs root).get? name) : t.Counting where
  uncounted := hvars
  define := by rw [hprocs "def" (by decide), h.define]
  function := by rw [hprocs "fn" (by decide), h.function]
  add := by rw [hprocs "+" (by decide), h.add]

theorem Counting.of_root (h : s.Counting) (hroot : t.frames[root]? = s.frames[root]?) :
    t.Counting := by
  apply h.of_procs
  · rw [table_congr .vars hroot, h.uncounted]
  · intro name _
    rw [table_congr .procs hroot]

theorem HasCounter.of_root (h : s.HasCounter name f) (hroot : t.frames[root]? = s.frames[root]?) :
    t.HasCounter name f where
  unprocedured := by rw [table_congr .procs hroot, h.unprocedured]
  closure := by rw [table_congr .vars hroot]; exact h.closure

theorem HoldsCount.of_frame (h : s.HoldsCount f k) (hframe : t.frames[f]? = s.frames[f]?) :
    t.HoldsCount f k where
  inner := h.inner
  frame := by rw [hframe]; exact h.frame

theorem HoldsCount.lt_size (h : s.HoldsCount f k) : f < s.frames.size := by
  obtain ⟨vars, hframe, -⟩ := h.frame
  exact (Array.getElem?_eq_some_iff.1 hframe).1

/-- A variable that holds a closure can be called, where no procedure has its name. -/
theorem HasCounter.function? (h : s.HasCounter name f) :
    ∃ id, s.function? root name = some (.closure ⟨id, anonymous, [], countUp, f⟩) := by
  obtain ⟨id, hclosure⟩ := h.closure
  refine ⟨id, ?_⟩
  rw [Store.function?, get?_root, h.unprocedured, get?_root, hclosure]
  rfl

/-- In the frame of a counter, the procedures are those of the root. -/
theorem HoldsCount.function? (h : s.HoldsCount f k) {p : Function}
    (hp : (s.table .procs root).get? name = some p) : s.function? f name = some p := by
  obtain ⟨vars, hframe, -⟩ := h.frame
  rw [Store.function?, get?_outer hframe rfl h.inner, get?_root, hp]
  rfl

theorem HoldsCount.value? (h : s.HoldsCount f k) : s.value? f "count" = some (.int k) := by
  obtain ⟨vars, hframe, hcount⟩ := h.frame
  have hget : (Namespace.vars.table ⟨some root, vars, .empty⟩).get? "count" = some (.int k) :=
    hcount
  rw [Store.value?, get?_outer hframe rfl h.inner, hget]
  rfl

theorem Counting.lt_size (h : s.Counting) : root < s.frames.size := by
  by_contra hge
  have hnone : s.frames[root]? = none := Array.getElem?_eq_none (Nat.le_of_not_lt hge)
  have hdefine := h.define
  rw [table_eq, hnone] at hdefine
  cases hdefine

theorem Counting.makeChild (h : s.Counting) (outer : FrameId) : (s.makeChild outer).2.Counting :=
  h.of_root (frames_makeChild_of_lt h.lt_size outer)

theorem HoldsCount.makeChild (h : s.HoldsCount f k) (outer : FrameId) :
    (s.makeChild outer).2.HoldsCount f k :=
  h.of_frame (frames_makeChild_of_lt h.lt_size outer)

/-- In a frame directly in the root no variable `count` is in sight, so it is bound there. -/
theorem Counting.update_inside (h : s.Counting) {own : FrameId}
    (hown : s.frames[own]? = some (.inside (some root))) (hlt : root < own) (n : Int) :
    s.update .vars own "count" (.int n) = s.set .vars own "count" (.int n) := by
  have howner : s.owner? .vars own "count" = none := by
    rw [owner?_inside hown hlt, owner?_root, Table.contains, h.uncounted]
    rfl
  rw [update, howner, Option.getD_none]

/-- In a frame inside that of a counter, the count is the nearest variable of its name. -/
theorem HoldsCount.update_inside (h : s.HoldsCount f k) {own : FrameId}
    (hown : s.frames[own]? = some (.inside (some f))) (hlt : f < own) (n : Int) :
    (s.update .vars own "count" (.int n)) = s.set .vars f "count" (.int n) := by
  obtain ⟨vars, hframe, hcount⟩ := h.frame
  have hcontains : (Namespace.vars.table ⟨some root, vars, .empty⟩).contains "count" = true := by
    rw [Table.contains]
    exact Option.isSome_iff_exists.2 ⟨_, hcount⟩
  have howner : s.owner? .vars own "count" = some f := by
    rw [owner?_inside hown hlt, owner?_outer hframe rfl h.inner, if_pos hcontains]
  rw [update, howner, Option.getD_some]

theorem HoldsCount.set (h : s.HoldsCount f k) (n : Int) :
    (s.set .vars f "count" (.int n)).HoldsCount f n := by
  obtain ⟨vars, hframe, -⟩ := h.frame
  refine ⟨h.inner, vars.set "count" (.int n), ?_, ?_⟩
  · rw [frames_set_self, hframe]
    rfl
  · rw [Table.get?_set, if_pos rfl]

end Store

/-! ## Calls -/

variable {m : Machine} {fuel : Nat} {s : Store} {f : FrameId} {name : String} {k : Int}

theorem onOperands_add {a b : Int} (h : Number.inRange (a + b) = true) :
    Arithmetic.add.onOperands [.int a, .int b] = .ok (.int (a + b)) := by
  simp [Arithmetic.onOperands, Arithmetic.foldInts, Arithmetic.onInts, Value.toInt, Value.isString,
    Value.isFloat, h, bind, Except.bind, Except.map]

/-- A call counts up and gives the new count. It changes no frame but that of the counter. -/
theorem gives_call (hs : s.Counting) (hcounter : s.HasCounter name f) (hcount : s.HoldsCount f k)
    (hk : Number.inRange (k + 1) = true) :
    Gives ((Evaluator.ofFuel m (fuel + 6)).evaluate (callForm name) Store.root) s fun v t =>
      v = .int (k + 1) ∧ t.HoldsCount f (k + 1) ∧
        ∀ g < s.frames.size, g ≠ f → t.frames[g]? = s.frames[g]? := by
  obtain ⟨id, hp⟩ := hcounter.function?
  apply Gives.evaluate_closure hp
  -- The closure runs in a frame inside that of the counter, the addition one further in.
  set own := s.frames.size
  set s₁ := (s.makeChild f).2 with hs₁
  set s₂ := (s₁.makeChild own).2 with hs₂
  have hlt : f < own := hcount.lt_size
  have hsize : s₁.frames.size = own + 1 := s.size_makeChild f
  have hlt₁ : own < s₁.frames.size := by omega
  have hkept : ∀ g < own, s₂.frames[g]? = s.frames[g]? := by
    intro g hg
    have hg₁ : g < s₁.frames.size := by omega
    rw [hs₂, Store.frames_makeChild_of_lt hg₁, hs₁, Store.frames_makeChild_of_lt hg]
  have hown : s₁.frames[own]? = some (.inside (some f)) := s.frames_makeChild_size f
  have hown₂ : s₂.frames[own]? = some (.inside (some f)) := by
    rw [hs₂, Store.frames_makeChild_of_lt hlt₁, hown]
  have hinner : s₂.frames[s₁.frames.size]? = some (.inside (some own)) :=
    s₁.frames_makeChild_size own
  have hcount₂ : s₂.HoldsCount f k := (hcount.makeChild f).makeChild own
  have hprocedure : ∀ {name p}, (s.table .procs Store.root).get? name = some p →
      s₁.function? own name = some p := by
    intro name p h
    rw [Store.function?_inside hown hlt]
    apply (hcount.makeChild f).function?
    rwa [Store.table_congr .procs (Store.frames_makeChild_of_lt hs.lt_size f)]
  apply Gives.evaluate_inCallerFrame (b := .define) rfl (hprocedure hs.define)
  apply Gives.define
  apply Gives.evaluate_inOwnFrame (b := .arithmetic .add) rfl (hprocedure hs.add)
  apply Gives.arithmetic_int (n := k + 1)
  apply Gives.evaluateAll_cons
  apply Gives.evaluate_symbol (v := .int k)
  · rw [Store.value?_inside hinner hlt₁, Store.value?_inside hown₂ hlt, hcount₂.value?]
  apply Gives.evaluateAll_cons
  apply Gives.evaluate_int
  apply Gives.pure
  refine ⟨onOperands_add hk, rfl, ?_⟩
  change (s₂.update .vars own "count" (.int (k + 1))).HoldsCount f (k + 1) ∧ ∀ g < own, g ≠ f →
    (s₂.update .vars own "count" (.int (k + 1))).frames[g]? = s.frames[g]?
  rw [hcount₂.update_inside hown₂ hlt]
  refine ⟨hcount₂.set (k + 1), fun g hg hne => ?_⟩
  rw [Store.frames_set_of_ne _ _ _ _ hne.symm, hkept g hg]

/-! ## New counters -/

/-- The root frame has the procedure that makes counters. -/
def Store.MakesCounters (s : Store) : Prop :=
  ∃ id, (s.table .procs Store.root).get? "make-counter" =
    some (.closure ⟨id, "make-counter", [], counterBody, Store.root⟩)

/-- A new counter starts from zero, in a frame that was not there before. In the root frame
only the variable that is set to it changes. -/
theorem gives_newCounter (hs : s.Counting) (hmake : s.MakesCounters) (name : String) :
    Gives ((Evaluator.ofFuel m (fuel + 7)).evaluate (newCounterForm name) Store.root) s fun _ t =>
      t.HoldsCount s.frames.size 0 ∧
      (∃ id, t.table .vars Store.root = (s.table .vars Store.root).set name
        (.closure id anonymous [] countUp s.frames.size)) ∧
      t.table .procs Store.root = s.table .procs Store.root ∧
      ∀ g < s.frames.size, g ≠ Store.root → t.frames[g]? = s.frames[g]? := by
  obtain ⟨id, hmake⟩ := hmake
  apply Gives.evaluate_inCallerFrame (b := .define) rfl (Store.function?_root hs.define)
  apply Gives.define
  apply Gives.evaluate_closure (Store.function?_root hmake)
  set own := s.frames.size
  set s₁ := (s.makeChild Store.root).2
  have hlt : Store.root < own := hs.lt_size
  have hown : s₁.frames[own]? = some (.inside (some Store.root)) :=
    s.frames_makeChild_size Store.root
  have hs₁ : s₁.Counting := hs.makeChild Store.root
  apply Gives.evaluate_block
  apply Gives.evaluate_inCallerFrame (b := .define) rfl
  · rw [Store.function?_inside hown hlt, Store.function?_root hs₁.define]
  apply Gives.define
  apply Gives.evaluate_int
  refine ⟨rfl, ?_⟩
  rw [hs₁.update_inside hown hlt]
  set s₂ := s₁.set .vars own "count" (.int 0)
  have hholds : s₂.HoldsCount own 0 := by
    refine ⟨hlt, Table.empty.set "count" (.int 0), ?_, rfl⟩
    exact (s₁.frames_set_self ..).trans (congrArg _ hown)
  have hkept : ∀ g < own, s₂.frames[g]? = s.frames[g]? := by
    intro g hg
    exact (s₁.frames_set_of_ne _ _ _ (Nat.ne_of_gt hg)).trans (Store.frames_makeChild_of_lt hg _)
  have hs₂ : s₂.Counting := hs.of_root (hkept _ hlt)
  apply Gives.evaluateLast_singleton
  apply Gives.evaluate_inCallerFrame (b := .function) rfl (hholds.function? hs₂.function)
  apply Gives.makeFunction_anonymous
  intro id
  simp only [Value.unwrap, Store.update_root]
  refine ⟨?_, ⟨id, ?_⟩, ?_, ?_⟩
  · exact hholds.of_frame (s₂.frames_set_of_ne _ _ _ (Nat.ne_of_lt hlt))
  · rw [Store.table_set_vars _ hs₂.lt_size, Store.table_congr .vars (hkept _ hlt)]
  · rw [Store.table_procs_set_vars, Store.table_congr .procs (hkept _ hlt)]
  · intro g hg hne
    rw [Store.frames_set_of_ne _ _ _ _ hne.symm, hkept g hg]

/-! ## Sequences -/

/-- Every name is set to a counter with a frame of its own, which has come to a count. -/
structure Counters (s : Store) (names : List String) (frameOf : String → FrameId)
    (count : String → Nat) : Prop where
  counting : s.Counting
  counter : ∀ name ∈ names, s.HasCounter name (frameOf name)
  holds : ∀ name ∈ names, s.HoldsCount (frameOf name) (count name)
  injective : ∀ name ∈ names, ∀ other ∈ names, frameOf name = frameOf other → name = other

variable {names : List String} {frameOf : String → FrameId} {count : String → Nat}

/-- One call counts up one counter. -/
theorem Counters.gives_call (h : Counters s names frameOf count) (hname : name ∈ names)
    (hcount : count name + 1 < 2 ^ 63) :
    Gives ((Evaluator.ofFuel m (fuel + 6)).evaluate (callForm name) Store.root) s fun v t =>
      v = .int ((count name + 1 : Nat) : Int) ∧
      Counters t names frameOf (Function.update count name (count name + 1)) ∧
      t.frames[Store.root]? = s.frames[Store.root]? := by
  have hrange := Bounds.inRange_of_lt hcount
  rw [Nat.cast_succ] at hrange
  refine (SmallLisp.gives_call h.counting (h.counter name hname) (h.holds name hname) hrange).imp ?_
  rintro v t ⟨rfl, hholds, hkept⟩
  have hroot : t.frames[Store.root]? = s.frames[Store.root]? :=
    hkept _ h.counting.lt_size (Nat.ne_of_lt (h.holds name hname).inner)
  refine ⟨rfl, ⟨h.counting.of_root hroot, ?_, ?_, h.injective⟩, hroot⟩
  · intro other hother
    exact (h.counter other hother).of_root hroot
  · intro other hother
    by_cases hne : other = name
    · subst hne
      rw [Function.update_self]
      exact hholds
    · rw [Function.update_of_ne hne]
      have hframe : frameOf other ≠ frameOf name := fun heq =>
        hne (h.injective other hother name hname heq)
      exact (h.holds other hother).of_frame (hkept _ (h.holds other hother).lt_size hframe)

theorem count_append_singleton (calls : List String) (name : String) :
    (fun other => (calls ++ [name]).count other) =
      Function.update (calls.count ·) name (calls.count name + 1) := by
  funext other
  by_cases h : other = name
  · subst h
    rw [Function.update_self, List.count_append, List.count_singleton_self]
  · rw [Function.update_of_ne h, List.count_append, List.count_singleton]
    simp [Ne.symm h]

/-- Each call in a sequence gives how often its counter has been called by then. -/
theorem Counters.gives_calls (h : Counters s names frameOf fun _ => 0) (m : Machine)
    (fuel : Nat) (calls : List String)
    (hcalls : ∀ name ∈ calls, name ∈ names) (hlength : calls.length < 2 ^ 63) :
    Gives ((Evaluator.ofFuel m (fuel + 6)).evaluateAll (calls.map callForm) Store.root) s
      fun vs t =>
        vs = calls.mapIdx (fun i name => .int ((calls.take (i + 1)).count name)) ∧
        Counters t names frameOf (calls.count ·) ∧
        t.frames[Store.root]? = s.frames[Store.root]? := by
  induction calls using List.reverseRecOn with
  | nil => exact .pure ⟨rfl, h, rfl⟩
  | append_singleton calls name ih =>
    rw [List.map_append]
    apply Gives.evaluateAll_append
    rw [List.length_append, List.length_singleton] at hlength
    have hbefore := ih (fun name hname => hcalls name (List.mem_append_left _ hname)) (by omega)
    refine hbefore.imp ?_
    rintro vs t ⟨rfl, ht, hroot⟩
    have hname := hcalls name (List.mem_append_right _ (List.mem_singleton_self name))
    have hle := List.count_le_length (a := name) (l := calls)
    apply Gives.evaluateAll_cons
    refine (ht.gives_call hname (by omega)).imp ?_
    rintro v u ⟨rfl, hu, hkept⟩
    apply Gives.pure
    refine ⟨?_, ?_, hkept.trans hroot⟩
    · rw [List.mapIdx_concat, List.take_of_length_le (by simp), List.count_append,
        List.count_singleton_self]
      congr 1
      apply List.mapIdx_eq_mapIdx_iff.2
      intro i hi
      rw [List.take_append_of_le_length hi]
    · rw [count_append_singleton]
      exact hu

theorem gives_makeCounter (hs : s.Counting) :
    Gives ((Evaluator.ofFuel m (fuel + 2)).evaluate makeCounterForm Store.root) s fun _ t =>
      t.Counting ∧ t.MakesCounters ∧
      ∀ name ≠ "make-counter",
        (t.table .procs Store.root).get? name = (s.table .procs Store.root).get? name := by
  apply Gives.evaluate_inCallerFrame (b := .function) rfl (Store.function?_root hs.function)
  apply Gives.makeFunction_named (by decide)
  intro id
  have hprocs (name : String) (p : Function) :
      ((s.set .procs Store.root "make-counter" p).table .procs Store.root).get? name =
        if name = "make-counter" then some p else (s.table .procs Store.root).get? name := by
    rw [Store.table_set_procs _ hs.lt_size, Table.get?_set]
  have hothers : ∀ name ≠ "make-counter", ∀ p,
      ((s.set .procs Store.root "make-counter" p).table .procs Store.root).get? name =
        (s.table .procs Store.root).get? name := by
    intro name hne p
    rw [hprocs, if_neg hne]
  refine ⟨hs.of_procs ?_ fun name hne => hothers name hne _, ⟨id, ?_⟩, fun name hne =>
    hothers name hne _⟩
  · rw [Store.table_vars_set_procs, hs.uncounted]
  · rw [hprocs, if_pos rfl]

/-- One more variable is set to a new counter. -/
theorem Counters.gives_newCounter (h : Counters s names frameOf fun _ => 0)
    (hmake : s.MakesCounters) (hnew : name ∉ names) (hname : name ≠ "count")
    (hfree : (s.table .procs Store.root).get? name = none) :
    Gives ((Evaluator.ofFuel m (fuel + 7)).evaluate (newCounterForm name) Store.root) s fun _ t =>
      Counters t (names ++ [name]) (Function.update frameOf name s.frames.size) (fun _ => 0) ∧
      t.table .procs Store.root = s.table .procs Store.root := by
  refine (SmallLisp.gives_newCounter h.counting hmake name).imp ?_
  rintro - t ⟨hholds, ⟨id, hvars⟩, hprocs, hkept⟩
  have hsplit : ∀ other ∈ names ++ [name],
      other ∈ names ∧ other ≠ name ∧ frameOf other ≠ s.frames.size ∨ other = name := by
    intro other hother
    rcases List.mem_append.1 hother with hold | hsame
    · exact .inl ⟨hold, fun heq => hnew (heq ▸ hold), Nat.ne_of_lt (h.holds other hold).lt_size⟩
    · exact .inr (List.mem_singleton.1 hsame)
  have hcounting : t.Counting := by
    apply h.counting.of_procs
    · rw [hvars, Table.get?_set, if_neg hname.symm, h.counting.uncounted]
    · intro other _
      rw [hprocs]
  refine ⟨⟨hcounting, ?_, ?_, ?_⟩, hprocs⟩
  · intro other hother
    rcases hsplit other hother with ⟨hold, hne, -⟩ | rfl
    · rw [Function.update_of_ne hne]
      refine ⟨by rw [hprocs, (h.counter other hold).unprocedured], ?_⟩
      obtain ⟨id, hclosure⟩ := (h.counter other hold).closure
      exact ⟨id, by rw [hvars, Table.get?_set, if_neg hne, hclosure]⟩
    · rw [Function.update_self]
      exact ⟨by rw [hprocs, hfree], id, by rw [hvars, Table.get?_set, if_pos rfl]⟩
  · intro other hother
    rcases hsplit other hother with ⟨hold, hne, -⟩ | rfl
    · rw [Function.update_of_ne hne]
      have hframe := hkept _ (h.holds other hold).lt_size (Nat.ne_of_gt (h.holds other hold).inner)
      exact (h.holds other hold).of_frame hframe
    · rw [Function.update_self]
      exact hholds
  · intro first hfirst second hsecond heq
    rcases hsplit first hfirst with ⟨hold₁, hne₁, hframe₁⟩ | rfl <;>
      rcases hsplit second hsecond with ⟨hold₂, hne₂, hframe₂⟩ | rfl
    · rw [Function.update_of_ne hne₁, Function.update_of_ne hne₂] at heq
      exact h.injective first hold₁ second hold₂ heq
    · rw [Function.update_of_ne hne₁, Function.update_self] at heq
      exact absurd heq hframe₁
    · rw [Function.update_of_ne hne₂, Function.update_self] at heq
      exact absurd heq.symm hframe₂
    · rfl

/-- Each of several variables is set to a new counter. -/
theorem gives_newCounters (hs : s.Counting) (hmake : s.MakesCounters) (hnodup : names.Nodup)
    (hnames : ∀ name ∈ names,
      name ≠ "count" ∧ (s.table .procs Store.root).get? name = none) :
    Gives ((Evaluator.ofFuel m (fuel + 7)).evaluateAll (names.map newCounterForm) Store.root) s
      fun _ t => ∃ frameOf, Counters t names frameOf (fun _ => 0) ∧
        t.table .procs Store.root = s.table .procs Store.root := by
  induction names using List.reverseRecOn with
  | nil =>
    refine .pure ⟨fun _ => Store.root, ⟨hs, ?_, ?_, ?_⟩, rfl⟩
    all_goals exact fun name hname => absurd hname List.not_mem_nil
  | append_singleton names name ih =>
    rw [List.map_append]
    apply Gives.evaluateAll_append
    rw [List.nodup_append] at hnodup
    rw [List.forall_mem_append, List.forall_mem_singleton] at hnames
    refine (ih hnodup.1 hnames.1).imp ?_
    rintro - t ⟨frameOf, ht, hprocs⟩
    have hnew : name ∉ names := fun hmem =>
      hnodup.2.2 name hmem name (List.mem_singleton_self name) rfl
    have hmake' : t.MakesCounters := by
      obtain ⟨id, hid⟩ := hmake
      exact ⟨id, by rw [hprocs, hid]⟩
    apply Gives.evaluateAll_cons
    refine (ht.gives_newCounter hmake' hnew hnames.2.1 (by rw [hprocs, hnames.2.2])).imp ?_
    rintro - u ⟨hu, hkept⟩
    exact .pure ⟨_, hu, hkept.trans hprocs⟩

/-- The count that the counter in a variable has come to. -/
def Store.counter? (s : Store) (name : String) : Option Value :=
  match (s.table .vars Store.root).get? name with
  | some (.closure _ _ _ _ f) => (s.table .vars f).get? "count"
  | _ => none

theorem Counters.counter? (h : Counters s names frameOf count) (hname : name ∈ names) :
    s.counter? name = some (.int (count name)) := by
  obtain ⟨id, hclosure⟩ := (h.counter name hname).closure
  obtain ⟨vars, hframe, hcount⟩ := (h.holds name hname).frame
  rw [Store.counter?, hclosure]
  dsimp only
  rw [Store.table_eq, hframe]
  exact hcount

/-- Variables that are set to counters one after another can then be called in any order:
each call gives how often its counter has been called by then. However the counters have
been called, each has counted its own calls, and the root frame is as it was. -/
theorem evaluateAll_counts (m : Machine) (fuel : Nat) {names : List String} {w : World}
    (hs : w.store.Counting) (hnodup : names.Nodup)
    (hnames : ∀ name ∈ names, name ≠ "count" ∧ name ≠ "make-counter" ∧
      (w.store.table .procs Store.root).get? name = none) :
    let ev := Evaluator.ofFuel m (fuel + 7)
    ∃ made ready,
      ev.evaluateAll (makeCounterForm :: names.map newCounterForm) Store.root w = .ok made ready ∧
      ∀ calls : List String, (∀ name ∈ calls, name ∈ names) → calls.length < 2 ^ 63 →
        ∃ after,
          ev.evaluateAll (calls.map callForm) Store.root ready =
            .ok (calls.mapIdx fun i name => .int ((calls.take (i + 1)).count name)) after ∧
          after.store.frames[Store.root]? = ready.store.frames[Store.root]? ∧
          ∀ name ∈ names, after.store.counter? name = some (.int (calls.count name)) := by
  intro ev
  have hmade : Gives (ev.evaluateAll (makeCounterForm :: names.map newCounterForm) Store.root)
      w.store fun _ t => ∃ frameOf, Counters t names frameOf fun _ => 0 := by
    apply Gives.evaluateAll_cons
    refine (gives_makeCounter hs).imp ?_
    rintro - t ⟨ht, hmake, hprocs⟩
    have hfree : ∀ name ∈ names,
        name ≠ "count" ∧ (t.table .procs Store.root).get? name = none := by
      intro name hname
      obtain ⟨hcount, hmake, hnone⟩ := hnames name hname
      exact ⟨hcount, by rw [hprocs name hmake, hnone]⟩
    exact (gives_newCounters ht hmake hnodup hfree).imp fun _ _ ⟨frameOf, hu, _⟩ => ⟨frameOf, hu⟩
  obtain ⟨made, ready, hrun, frameOf, hready⟩ := hmade w rfl
  refine ⟨made, ready, hrun, fun calls hcalls hlength => ?_⟩
  obtain ⟨values, after, hafter, rfl, hcounters, hroot⟩ :=
    hready.gives_calls m (fuel + 1) calls hcalls hlength ready rfl
  exact ⟨after, hafter, hroot, fun name hname => hcounters.counter? hname⟩

/-- Two counters in a new session, called by turns. -/
theorem evaluateAll_counts_turns :
    ∃ made ready after,
      (Evaluator.ofFuel .bare 7).evaluateAll
          [makeCounterForm, newCounterForm "a", newCounterForm "b"] Store.root
          (World.fresh ⟨[], false⟩) = .ok made ready ∧
      (Evaluator.ofFuel .bare 7).evaluateAll
          [callForm "a", callForm "b", callForm "a"] Store.root ready =
        .ok [.int 1, .int 1, .int 2] after ∧
      after.store.counter? "a" = some (.int 2) ∧ after.store.counter? "b" = some (.int 1) := by
  obtain ⟨hvars, hprocs, hnone⟩ := World.tables_fresh ⟨[], false⟩
  have hs : (World.fresh ⟨[], false⟩).store.Counting := by
    refine ⟨?_, hprocs .define, hprocs .function, hprocs (.arithmetic .add)⟩
    rw [hvars, Table.get?_empty]
  have hfree : ∀ name ∈ ["a", "b"], name ≠ "count" ∧ name ≠ "make-counter" ∧
      ((World.fresh ⟨[], false⟩).store.table .procs Store.root).get? name = none := by
    intro name hname
    have hnew : (∀ b ∈ Builtin.all, b.name ≠ name) ∧ name ≠ "count" ∧ name ≠ "make-counter" := by
      revert name
      decide
    exact ⟨hnew.2.1, hnew.2.2, hnone name fun b => hnew.1 b (Builtin.mem_all b)⟩
  obtain ⟨made, ready, hmade, hcalls⟩ := evaluateAll_counts .bare 0 hs (by decide) hfree
  obtain ⟨after, hafter, -, hcounts⟩ := hcalls ["a", "b", "a"] (by decide) (by decide)
  exact ⟨made, ready, after, hmade, hafter, hcounts "a" (by decide), hcounts "b" (by decide)⟩

end SmallLisp
