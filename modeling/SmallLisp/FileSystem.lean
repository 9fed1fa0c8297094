import SmallLisp.Path
import SmallLisp.Text.Utf8
import SmallLisp.Text.Quoted

/-! # File systems

Trees of directories, files and links. A path is followed from directory to
directory, and the place it leads to is a list of names from the root that
passes no link. -/

namespace SmallLisp

inductive Node where
  | file (bytes : List UInt8)
  | link (target : String)
  | directory (entries : List (String × Node))

/-- Names from the root, without links and `..`. -/
abbrev Place := List String

namespace Node

def child? : Node → String → Option Node
  | directory entries, name => entries.lookup name
  | _, _ => none

/-- The node at a place below this one; links are not followed. -/
def at? (n : Node) : Place → Option Node
  | [] => some n
  | name :: names => (n.child? name).bind (·.at? names)

def entries : Node → List (String × Node)
  | directory entries => entries
  | _ => []

def isDirectory : Node → Bool
  | directory _ => true
  | _ => false

/-- A tree with `new` at a place; directories on the way are made as needed. -/
def put (new : Node) : Place → Node → Node
  | [], _ => new
  | name :: names, n =>
    let below := (n.child? name).getD (directory [])
    directory (n.entries.filter (·.1 != name) ++ [(name, put new names below)])

/-- A tree in which a place is a directory at least. -/
def putDirectory (place : Place) (n : Node) : Node :=
  match n.at? place with
  | some (directory _) => n
  | _ => put (directory []) place n

mutual

/-- How many links a tree holds. -/
def linkCount : Node → Nat
  | file _ => 0
  | link _ => 1
  | directory entries => linkCountIn entries

def linkCountIn : List (String × Node) → Nat
  | [] => 0
  | (_, n) :: entries => linkCount n + linkCountIn entries

end

end Node

inductive FileFault where
  | missing (path : String)
  | notDirectory (path : String)
  | isDirectory (path : String)
  | nameTooLong (path : String)
  | linkLoop (path : String)
  /-- A name holds the zero character. -/
  | zeroInName
  | undecodable (fault : Text.DecodeFault)
deriving DecidableEq

namespace FileFault

/-- The numbers are those that systems give to these failures. -/
def numbered (number reason path : String) : String :=
  "[Errno " ++ number ++ "] " ++ reason ++ ": " ++ String.ofList (Text.quoteMessage path.toList)

def reasonText : Text.DecodeReason → String
  | .invalidStart => "invalid start byte"
  | .invalidContinuation => "invalid continuation byte"
  | .unexpectedEnd => "unexpected end of data"

def decodeText (fault : Text.DecodeFault) : String :=
  let bytes :=
    if fault.first = fault.last then
      "byte 0x" ++ String.ofList (Text.hexDigits 2 fault.byte.toNat) ++
        " in position " ++ toString fault.first
    else "bytes in position " ++ toString fault.first ++ "-" ++ toString fault.last
  "'utf-8' codec can't decode " ++ bytes ++ ": " ++ reasonText fault.reason

def message : FileFault → String
  | missing path => numbered "2" "No such file or directory" path
  | notDirectory path => numbered "20" "Not a directory" path
  | isDirectory path => numbered "21" "Is a directory" path
  | nameTooLong path => numbered "36" "File name too long" path
  | linkLoop path => "Symlink loop from " ++ String.ofList (Text.quoteMessage path.toList)
  | zeroInName => "embedded null byte"
  | undecodable fault => decodeText fault

end FileFault

/-- What a system meets on the way along a path that it cannot follow to the end. -/
inductive Obstacle where
  | missing
  | notDirectory
  | nameTooLong
  | linkLoop
deriving DecidableEq

namespace Obstacle

def fault (path : String) : Obstacle → FileFault
  | missing => .missing path
  | notDirectory => .notDirectory path
  | nameTooLong => .nameTooLong path
  | linkLoop => .linkLoop path

end Obstacle

/-- One step on a path: to a name, up, or nowhere but only from a directory. -/
inductive Step where
  | enter (name : String)
  | up
  | stay
deriving DecidableEq

namespace Step

def ofName (name : String) : Step :=
  if name = ".." then up else if name = "." then stay else enter name

/-- The steps of the target of a link; a slash at its end asks for a directory. -/
def ofTarget (target : String) : List Step :=
  let names := ((Path.components target.toList).map String.ofList).filter (· ≠ "")
  names.map ofName ++ if target.toList.getLast? = some '/' then [stay] else []

end Step

/-- A file system as a session sees it: the tree and the working directory. -/
structure FileSystem where
  tree : Node
  directory : Place

namespace FileSystem

variable (fs : FileSystem)

def node? (place : Place) : Option Node := fs.tree.at? place

/-- The place where a path starts. -/
def startOf (p : Path) : Place := if p.isAbsolute then [] else fs.directory

/-- The longest name of a file, in bytes. -/
def nameLimit : Nat := 255

/-- A path is shorter than this, in bytes. -/
def pathLimit : Nat := 4096

/-- Systems give up on a path after this many links. -/
def linkLimit : Nat := 40

/-- The place that steps lead to, at most `links` links being followed. -/
def follow (links : Nat) (here : Place) (steps : List Step) : Except Obstacle Place :=
  match steps with
  | [] => .ok here
  | step :: rest =>
    match fs.node? here with
    | some (.directory entries) =>
      match step with
      | .stay => follow links here rest
      | .up => follow links here.dropLast rest
      | .enter name =>
        if nameLimit < name.utf8ByteSize then .error .nameTooLong
        else
          match entries.lookup name with
          | none => .error .missing
          | some (.link target) =>
            match links with
            | 0 => .error .linkLoop
            | links + 1 =>
              let start := if (Path.ofText target).isAbsolute then [] else here
              follow links start (Step.ofTarget target ++ rest)
          | some _ => follow links (here ++ [name]) rest
    | _ => .error .notDirectory
termination_by (links, steps.length)

/-- Where a path leads to. A path with the zero character leads nowhere. -/
def locate (p : Path) : Except Obstacle Place :=
  if p.text.toList.contains '\x00' then .error .missing
  else if pathLimit ≤ p.text.utf8ByteSize then .error .nameTooLong
  else fs.follow linkLimit (fs.startOf p) (p.names.map Step.ofName)

/-- The place that a path leads to, if there is one; to ask for a name that is too
long is a fault. -/
def place? (p : Path) : Except FileFault (Option Place) :=
  match fs.locate p with
  | .ok place => .ok (some place)
  | .error .nameTooLong => .error (.nameTooLong p.text)
  | .error _ => .ok none

/-- Does something exist where the path leads? -/
def isPresent (p : Path) : Except FileFault Bool := (fs.place? p).map Option.isSome

def holdsFile (place : Place) : Bool :=
  match fs.node? place with
  | some (.file _) => true
  | _ => false

/-- The place of the file that a path leads to, if it leads to a file. -/
def file? (p : Path) : Except FileFault (Option Place) :=
  (fs.place? p).map (·.filter fs.holdsFile)

/-- The first of several paths that leads to a file. -/
def firstFile? : List Path → Except FileFault (Option Place)
  | [] => .ok none
  | p :: paths =>
    match fs.file? p with
    | .ok none => firstFile? paths
    | outcome => outcome

/-- The place of a path that passes no links: each `..` cancels the name before. -/
def lexicalPlace (p : Path) : Place :=
  p.names.foldl (fun place name => if name = ".." then place.dropLast else place ++ [name])
    (fs.startOf p)

/-- What is wrong with a link that leads back to itself: the system may meet another
obstacle before it has gone round. -/
def loopFault (p : Path) : FileFault :=
  match fs.locate p with
  | .error obstacle => obstacle.fault p.text
  | .ok _ => .linkLoop p.text

/-- `reached`, a path without links, extended by names, each link on the way
replaced by what it leads to. The links being replaced are `pending`. A fault
shows the path as it was reached. -/
def resolveFrom (links : Nat) (pending : List Path) (reached : Path) (names : List String) :
    Except FileFault Path :=
  match names with
  | [] => .ok reached
  | ".." :: rest => resolveFrom links pending reached.up rest
  | name :: rest =>
    let next := reached.enter name
    if name.toList.contains '\x00' then .error .zeroInName
    else if pathLimit ≤ next.text.utf8ByteSize then .error (.nameTooLong next.text)
    else
      match fs.node? (fs.lexicalPlace reached) with
      | some (.directory entries) =>
        if nameLimit < name.utf8ByteSize then .error (.nameTooLong next.text)
        else
          match entries.lookup name with
          | none => .error (.missing next.text)
          | some (.link target) =>
            if next ∈ pending then .error (fs.loopFault next)
            else
              match links with
              | 0 => .error (.linkLoop next.text)
              | links + 1 =>
                let start := if (Path.ofText target).isAbsolute then Path.ofNames [] else reached
                match resolveFrom links (next :: pending) start (Path.namesOf target) with
                | .error fault => .error fault
                | .ok reached => resolveFrom (links + 1) pending reached rest
          | some _ => resolveFrom links pending next rest
      | _ => .error (.notDirectory next.text)
termination_by (links, names.length)

/-- No more links than this are being replaced at a time: each is met by at most one
path from the root, from the working directory and from each directory above. -/
def linkBound : Nat := fs.tree.linkCount * (fs.directory.length + 2)

/-- The place that a path leads to, or why there is none. -/
def resolve (p : Path) : Except FileFault Place :=
  let start := if p.isAbsolute then Path.ofNames [] else ⟨.here, []⟩
  match fs.resolveFrom fs.linkBound [] start p.names with
  | .error fault => .error fault
  | .ok reached => .ok (fs.lexicalPlace reached)

/-- The text of the file at a place, with line ends unified. -/
def readText (place : Place) : Except FileFault (List Char) :=
  let path := (Path.ofNames place).text
  if pathLimit ≤ path.utf8ByteSize then .error (.nameTooLong path)
  else
    match fs.node? place with
    | some (.file bytes) =>
      match Text.Utf8.decode bytes with
      | .ok cs => .ok (Text.unifyLineEnds cs)
      | .error fault => .error (.undecodable fault)
    | some (.directory _) => .error (.isDirectory path)
    | _ => .error (.missing path)

end FileSystem

end SmallLisp
