import SmallLisp.Reading.Atom

/-! # Forests

A sequence of tokens is read into a forest of forms. Lists that are open wait
with what they hold so far; the first token that does not fit ends the reading. -/

namespace SmallLisp.Reading

/-- The forms of the innermost open list, and those of the lists around it,
each with the newest form first. -/
structure Layers where
  inner : List Value
  outer : List (List Value)

namespace Layers

def start : Layers := ⟨[], []⟩

def add (v : Value) (layers : Layers) : Layers := { layers with inner := v :: layers.inner }

def openList (layers : Layers) : Layers := ⟨[], layers.inner :: layers.outer⟩

/-- The inner list becomes an element of the list around it, if there is one. -/
def closeList? (layers : Layers) : Option Layers :=
  match layers.outer with
  | [] => none
  | around :: outer => some ⟨.list layers.inner.reverse :: around, outer⟩

end Layers

/-- Takes up the token at `index`. -/
def advance (index : Nat) (token : Token) (layers : Layers) : Except Stop Layers :=
  if token = ['('] then .ok layers.openList
  else if token = [')'] then
    match layers.closeList? with
    | some layers => .ok layers
    | none => .error (.error (.unexpectedClose index))
  else (readAtom token).map layers.add

/-- Reads all tokens from `index` on. -/
def readFrom (index : Nat) (layers : Layers) : List Token → Except Stop (List Value)
  | [] =>
    if layers.outer.isEmpty then .ok layers.inner.reverse else .error (.error .unterminatedList)
  | token :: rest =>
    match advance index token layers with
    | .ok layers => readFrom (index + 1) layers rest
    | .error s => .error s

/-- Reads up to the end of the first form, and gives the index after it. -/
def readOneFrom (index : Nat) (layers : Layers) : List Token → Except Stop (Value × Nat)
  | [] => .error (.error (if layers.outer.isEmpty then .unexpectedEnd else .unterminatedList))
  | token :: rest =>
    match advance index token layers with
    | .ok ⟨[v], []⟩ => .ok (v, index + 1)
    | .ok layers => readOneFrom (index + 1) layers rest
    | .error s => .error s

def readTokens (tokens : List Token) : Except Stop (List Value) :=
  readFrom 0 .start tokens

def readOne (tokens : List Token) : Except Stop (Value × Nat) :=
  readOneFrom 0 .start tokens

/-- The forms of a source text. -/
def read (source : String) : Except Stop (List Value) :=
  readTokens (tokens source.toList)

end SmallLisp.Reading
