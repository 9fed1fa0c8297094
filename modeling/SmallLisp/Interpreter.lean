import SmallLisp.Builtin.Arithmetic
import SmallLisp.Builtin.Binding
import SmallLisp.Builtin.Console
import SmallLisp.Builtin.Lists
import SmallLisp.Builtin.Logic
import SmallLisp.Builtin.System

/-! # The interpreter

Built-in procedures and the evaluation of forms need each other. The interpreter
closes the circle: with one unit of fuel more, a form is evaluated and a
procedure performed by the means that the fuel left gives. -/

namespace SmallLisp

open EvalM

namespace Evaluator

/-- What each built-in procedure does with its argument forms. -/
def performBuiltin (ev : Evaluator) (b : Builtin) (args : List Value) (frame : FrameId) :
    EvalM Value :=
  match b with
  | .function => makeFunction args frame
  | .define => ev.define args frame
  | .undefine => undefine args frame
  | .branch => ev.branch args frame
  | .repeatWhile => ev.whileLoop args frame
  | .forEach => ev.forLoop args frame
  | .print => ev.print args frame
  | .printLine => ev.print args frame
  | .printFormat => ev.printFormat args frame
  | .readLine => ev.readLine args frame
  | .log severity => ev.log severity args frame
  | .convert target => ev.convert target args frame
  | .arithmetic op => ev.arithmetic op args frame
  | .equal => ev.equal args frame
  | .notEqual => ev.notEqual args frame
  | .compare relation => ev.compare relation args frame
  | .and => ev.conjunction args frame
  | .or => ev.disjunction args frame
  | .not => ev.negation args frame
  | .head => ev.head args frame
  | .last => ev.last args frame
  | .sequence => ev.sequence args frame
  | .count => ev.count args frame
  | .map => ev.map args frame
  | .filter => ev.filter args frame
  | .trim => ev.changeText b Text.trim args frame
  | .trimLeft => ev.changeText b Text.trimLeft args frame
  | .trimRight => ev.changeText b Text.trimRight args frame
  | .lower => ev.changeText b Text.lower args frame
  | .upper => ev.changeText b Text.upper args frame
  | .format => ev.format args frame
  | .split => ev.split args frame
  | .join => ev.join args frame
  | .contains => ev.contains args frame
  | .startsWith => ev.startsWith args frame
  | .endsWith => ev.endsWith args frame
  | .replace => ev.replace args frame
  | .byteLength => ev.byteLength args frame
  | .charCode => ev.charCode args frame
  | .charOfCode => ev.charOfCode args frame
  | .callByName => ev.callByName args frame
  | .listProcedures => listProcedures frame
  | .showBindings => showBindings frame
  | .assert => ev.assert args frame
  | .assertEqual => ev.assertEqual args frame
  | .random => ev.random args frame
  | .exit => ev.exit args frame
  | .importFile => ev.importArgument args frame

/-- The evaluator with a given amount of fuel; without any it gives up. -/
def ofFuel (m : Machine) : Nat → Evaluator
  | 0 => ⟨m, 0, fun _ _ => stop .outOfFuel, fun _ _ _ => stop .outOfFuel⟩
  | fuel + 1 =>
    ⟨m, fuel + 1, fun form frame => (ofFuel m fuel).evaluateForm form frame,
      fun b args frame => (ofFuel m fuel).performBuiltin b args frame⟩

end Evaluator

/-- Evaluates a form in a frame. -/
def evaluate (m : Machine) (fuel : Nat) (form : Value) (frame : FrameId) : EvalM Value :=
  (Evaluator.ofFuel m fuel).evaluate form frame

end SmallLisp
