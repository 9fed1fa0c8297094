import SmallLisp.Scope.Store
import SmallLisp.Value.Display

/-! # Descriptions of frames

Texts that show the bindings of a frame, and of the frames around it. -/

namespace SmallLisp

namespace Store

open Value

def describeTable (table : Table Value) : String :=
  "\x7b" ++ ", ".intercalate (table.entries.map fun entry => entry.1 ++ ": " ++ inspect entry.2) ++
    "\x7d"

/-- The names of the procedures, if any, and the variables of one frame; an arrow
stands for the frames around it. -/
def describe (s : Store) (f : FrameId) : String :=
  let procedures := s.table .procs f
  let arrow := match s.frames[f]? with
    | some ⟨some _, _, _⟩ => " -> ..."
    | _ => ""
  (if procedures.isEmpty then ""
    else "Funcs: [" ++ ", ".intercalate (procedures.keys.map quoted) ++ "] ; ") ++
    "Vars: " ++ describeTable (s.table .vars f) ++ arrow

/-- The variables of a frame and of those around it. -/
def describeChain (s : Store) (f : FrameId) : String :=
  "<Environment chain: " ++
    " -> ".intercalate ((s.chain f).map fun g => describeTable (s.table .vars g)) ++ ">"

end Store

end SmallLisp
