/-! # Paths

Paths of files, without empty and `.` components; `..` is kept, since what it
leads to depends on the links before it. -/

namespace SmallLisp

/-- Where a path starts. A path that begins with exactly two slashes keeps them. -/
inductive Anchor where
  | here
  | root
  | doubleRoot
deriving DecidableEq, Repr

namespace Anchor

def text : Anchor → String
  | here => ""
  | root => "/"
  | doubleRoot => "//"

end Anchor

structure Path where
  anchor : Anchor
  names : List String
deriving DecidableEq, Repr

namespace Path

/-- The texts between slashes. -/
def components : List Char → List (List Char)
  | [] => [[]]
  | c :: cs =>
    if c = '/' then [] :: components cs
    else
      match components cs with
      | [] => [[c]]
      | name :: names => (c :: name) :: names

def namesOf (text : String) : List String :=
  ((components text.toList).map String.ofList).filter fun name => name ≠ "" && name ≠ "."

def anchorOf (text : String) : Anchor :=
  match (text.toList.takeWhile (· == '/')).length with
  | 0 => .here
  | 2 => .doubleRoot
  | _ => .root

def ofText (text : String) : Path := ⟨anchorOf text, namesOf text⟩

/-- An absolute path without `..`, from its names. -/
def ofNames (names : List String) : Path := ⟨.root, names⟩

def text (p : Path) : String :=
  match p.anchor, p.names with
  | .here, [] => "."
  | anchor, names => anchor.text ++ "/".intercalate names

def isAbsolute (p : Path) : Bool := p.anchor ≠ .here

/-- `q` as seen from the directory `p`. -/
def join (p q : Path) : Path :=
  if q.isAbsolute then q else ⟨p.anchor, p.names ++ q.names⟩

def enter (p : Path) (name : String) : Path := ⟨p.anchor, p.names ++ [name]⟩

def parent (p : Path) : Path := ⟨p.anchor, p.names.dropLast⟩

/-- The last name, empty when there is none. -/
def name (p : Path) : String := p.names.getLastD ""

/-- The directory above, when no name on the way is a link. -/
def up (p : Path) : Path :=
  match p.anchor, p.names.getLast? with
  | .here, none => ⟨.here, [".."]⟩
  | .here, some ".." => ⟨.here, p.names ++ [".."]⟩
  | _, _ => p.parent

/-- A first name that starts with `~` stands for a home directory: `homeOf` gives
that of the user named after it. Without one there is no path. -/
def expandHome? (homeOf : String → Option String) (p : Path) : Option Path :=
  match p.anchor, p.names with
  | .here, first :: names =>
    match first.toList with
    | '~' :: user =>
      match homeOf (String.ofList user) with
      | none => none
      | some home =>
        let trimmed := (home.toList.reverse.dropWhile (· == '/')).reverse
        let base := ofText (if trimmed.isEmpty then "/" else String.ofList trimmed)
        if trimmed.head? = some '~' then none else some ⟨base.anchor, base.names ++ names⟩
    | _ => some p
  | _, _ => some p

end Path

end SmallLisp
