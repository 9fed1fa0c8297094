import SmallLisp.Scope.Table
import SmallLisp.Value

/-! # Frames

Bindings live in frames. A frame has two namespaces, variables and procedures,
and lies inside an outer frame, so that the frames form a forest. A name is
looked up along the chain of frames from the inside out. -/

namespace SmallLisp

structure Frame where
  outer : Option FrameId
  vars : Table Value
  procs : Table Function

namespace Frame

def inside (outer : Option FrameId) : Frame := ⟨outer, .empty, .empty⟩

end Frame

/-- A choice of one of the tables of a frame. -/
structure Namespace (α : Type) where
  table : Frame → Table α
  change : (Table α → Table α) → Frame → Frame

namespace Namespace

def vars : Namespace Value where
  table frame := frame.vars
  change f frame := { frame with vars := f frame.vars }

def procs : Namespace Function where
  table frame := frame.procs
  change f frame := { frame with procs := f frame.procs }

end Namespace

/-- All frames, numbered in the order in which they were made. -/
structure Store where
  frames : Array Frame

namespace Store

variable {α : Type}

/-- A single frame without bindings. -/
def bare : Store := ⟨#[.inside none]⟩

def root : FrameId := 0

/-- A new frame inside `outer`; its number is the count of frames before. -/
def makeChild (s : Store) (outer : FrameId) : FrameId × Store :=
  let child := s.frames.size
  (child, ⟨s.frames.push (.inside (some outer))⟩)

/-- The frames in which names are looked up, from `f` outward. An outer frame
is older than the frames inside it. -/
def chain (s : Store) (f : FrameId) : List FrameId :=
  match s.frames[f]? with
  | none => []
  | some frame =>
    f :: match frame.outer with
      | none => []
      | some outer => if outer < f then chain s outer else []
termination_by f

def table (s : Store) (ns : Namespace α) (f : FrameId) : Table α :=
  match s.frames[f]? with
  | none => .empty
  | some frame => ns.table frame

/-- The nearest frame that binds a name. -/
def owner? (s : Store) (ns : Namespace α) (f : FrameId) (name : String) : Option FrameId :=
  (s.chain f).find? fun g => (s.table ns g).contains name

/-- The nearest binding of a name. -/
def get? (s : Store) (ns : Namespace α) (f : FrameId) (name : String) : Option α :=
  (s.chain f).findSome? fun g => (s.table ns g).get? name

def change (s : Store) (ns : Namespace α) (f : FrameId) (op : Table α → Table α) : Store :=
  ⟨s.frames.modify f (ns.change op)⟩

/-- Binds a name in the frame itself. -/
def set (s : Store) (ns : Namespace α) (f : FrameId) (name : String) (value : α) : Store :=
  s.change ns f (·.set name value)

/-- Replaces the nearest binding of a name; if there is none, binds it in the
frame itself. -/
def update (s : Store) (ns : Namespace α) (f : FrameId) (name : String) (value : α) : Store :=
  s.set ns ((s.owner? ns f name).getD f) name value

/-- Removes a name from the frame itself. -/
def erase (s : Store) (ns : Namespace α) (f : FrameId) (name : String) : Store :=
  s.change ns f (·.erase name)

/-- The names without repetitions, each where it occurs first. -/
def distinct : List String → List String
  | [] => []
  | name :: rest => name :: (distinct rest).filter (· ≠ name)

theorem mem_distinct {name : String} {names : List String} :
    name ∈ distinct names ↔ name ∈ names := by
  induction names with
  | nil => simp [distinct]
  | cons first rest ih =>
    by_cases h : name = first <;> simp [distinct, h, ih]

theorem nodup_distinct (names : List String) : (distinct names).Nodup := by
  induction names with
  | nil => exact List.nodup_nil
  | cons first rest ih =>
    refine List.nodup_cons.2 ⟨by simp, ih.sublist List.filter_sublist⟩

/-- The names that can be seen from a frame: those of inner frames first, in the
order of insertion, each once. -/
def names (s : Store) (ns : Namespace α) (f : FrameId) : List String :=
  distinct ((s.chain f).flatMap fun g => (s.table ns g).keys)

/-- The names that can be seen from a frame, each with its nearest binding. -/
def visible (s : Store) (ns : Namespace α) (f : FrameId) : List (String × α) :=
  (s.names ns f).filterMap fun name => (s.get? ns f name).map fun value => (name, value)

/-- What a symbol stands for: a variable, or else a procedure. -/
def value? (s : Store) (f : FrameId) (name : String) : Option Value :=
  match s.get? .vars f name with
  | some v => some v
  | none => (s.get? .procs f name).map Function.toValue

/-- What a name in front of arguments stands for: a procedure, or else a variable
that holds a function. -/
def function? (s : Store) (f : FrameId) (name : String) : Option Function :=
  match s.get? .procs f name with
  | some p => some p
  | none => (s.get? .vars f name).bind Value.function?

end Store

end SmallLisp
