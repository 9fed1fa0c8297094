import Mathlib
import SmallLisp.Proofs.ImportGraph
import SmallLisp.Proofs.Paths

/-! # Places of imported files

The place that an import gives is canonical: no link leads away from it, its own path
leads to it from everywhere, and every path that leads to the same entry of a directory
gives it. The working directory is without effect wherever the path is absolute, and a
file under the path as it is written comes before one under the extended path. -/

namespace SmallLisp

/-! ## Trees -/

namespace Node

/-- Every entry on the way to a node of the tree has the name of a file. -/
def HasFileNames (n : Node) : Prop :=
  ∀ ⦃place : Place⦄ ⦃m : Node⦄, n.at? place = some m → ∀ name ∈ place, IsFileName name

theorem at?_append (n : Node) (place below : Place) :
    n.at? (place ++ below) = (n.at? place).bind (·.at? below) := by
  induction place generalizing n with
  | nil => rfl
  | cons name names ih =>
    rw [List.cons_append, at?, at?, Option.bind_assoc]
    exact congrArg _ (funext fun child => ih child)

theorem at?_cons {n m : Node} {name : String} {names : Place} (h : n.at? (name :: names) = some m) :
    ∃ entries child, n = directory entries ∧ entries.lookup name = some child ∧
      child.at? names = some m := by
  obtain ⟨child, hchild, hat⟩ := Option.bind_eq_some_iff.1 h
  cases n with
  | directory entries => exact ⟨entries, child, rfl, hchild, hat⟩
  | file _ => cases hchild
  | link _ => cases hchild

theorem hasFileNames_file (bytes : List UInt8) : (file bytes).HasFileNames := by
  rintro (_ | ⟨name, names⟩) m h
  · exact fun name hname => absurd hname List.not_mem_nil
  · cases h

theorem hasFileNames_link (target : String) : (link target).HasFileNames := by
  rintro (_ | ⟨name, names⟩) m h
  · exact fun name hname => absurd hname List.not_mem_nil
  · cases h

theorem hasFileNames_directory {entries : List (String × Node)}
    (h : ∀ entry ∈ entries, IsFileName entry.1 ∧ entry.2.HasFileNames) :
    (directory entries).HasFileNames := by
  rintro (_ | ⟨name, names⟩) m hat
  · exact fun name hname => absurd hname List.not_mem_nil
  · obtain ⟨_, child, ⟨⟩, hentry, hchild⟩ := at?_cons hat
    obtain ⟨before, after, rfl, -⟩ := List.lookup_eq_some_iff.1 hentry
    obtain ⟨hname, hnames⟩ := h (name, child) (List.mem_append_right _ List.mem_cons_self)
    exact List.forall_mem_cons.2 ⟨hname, hnames hchild⟩

/-- Nothing is below a link. -/
theorem ne_link_of_at? {n m : Node} {place : Place} (h : n.at? place = some m)
    (hm : ∀ target, m ≠ link target) (target : String) : n ≠ link target := by
  rintro rfl
  cases place with
  | nil =>
    cases h
    exact hm target rfl
  | cons name names =>
    obtain ⟨_, _, hdirectory, -⟩ := at?_cons h
    cases hdirectory

end Node

namespace FileSystem

/-- A tree as systems keep it. -/
structure IsSound (fs : FileSystem) : Prop where
  root : fs.tree.isDirectory = true
  directory : ∃ entries, fs.node? fs.directory = some (.directory entries)
  names : fs.tree.HasFileNames

variable (fs : FileSystem)

/-- The same files, seen from another working directory. -/
def inDirectory (directory : Place) : FileSystem := { fs with directory }

/-- The path of a regular file that goes down from the root and passes no link. -/
structure IsCanonical (p : Path) : Prop where
  absolute : p.isAbsolute = true
  plain : ∀ name ∈ p.names, name ≠ "." ∧ name ≠ ".."
  noLink : ∀ k target, fs.node? (p.names.take k) ≠ some (.link target)
  file : ∃ bytes, fs.node? p.names = some (.file bytes)

/-- From `here`, steps lead `there`, links being followed wherever they are met. -/
inductive Leads : Place → List Step → Place → Prop
  | arrived (here : Place) : Leads here [] here
  | stay {here there : Place} {rest : List Step} {entries : List (String × Node)}
      (hhere : fs.node? here = some (.directory entries)) (h : Leads here rest there) :
      Leads here (.stay :: rest) there
  | up {here there : Place} {rest : List Step} {entries : List (String × Node)}
      (hhere : fs.node? here = some (.directory entries)) (h : Leads here.dropLast rest there) :
      Leads here (.up :: rest) there
  | enter {here there : Place} {name : String} {rest : List Step}
      {entries : List (String × Node)} {n : Node}
      (hhere : fs.node? here = some (.directory entries)) (hentry : entries.lookup name = some n)
      (hlink : ∀ target, n ≠ .link target) (h : Leads (here ++ [name]) rest there) :
      Leads here (.enter name :: rest) there
  | link {here there : Place} {name target : String} {rest : List Step}
      {entries : List (String × Node)}
      (hhere : fs.node? here = some (.directory entries))
      (hentry : entries.lookup name = some (.link target))
      (h : Leads (if (Path.ofText target).isAbsolute then [] else here)
        (Step.ofTarget target ++ rest) there) :
      Leads here (.enter name :: rest) there

/-- The entry that a path leads to. -/
def LeadsTo (p : Path) (entry : Place) : Prop :=
  fs.Leads (fs.startOf p) (p.names.map Step.ofName) entry

variable {fs}

theorem leads_of_follow {links : Nat} {here there : Place} {steps : List Step}
    (h : fs.follow links here steps = .ok there) : fs.Leads here steps there := by
  fun_induction fs.follow links here steps with
  | case1 links here =>
    cases h
    exact .arrived _
  | case2 links here rest entries hhere ih => exact .stay hhere (ih h)
  | case3 links here rest entries hhere ih => exact .up hhere (ih h)
  | case4 | case5 | case6 | case9 => cases h
  | case7 here rest entries hhere name hlong target hentry links start ih =>
    exact .link hhere hentry (ih h)
  | case8 links here rest entries hhere name hlong n hlink hentry ih =>
    exact .enter hhere hentry hlink (ih h)

theorem Leads.unique {here there there' : Place} {steps : List Step}
    (h : fs.Leads here steps there) (h' : fs.Leads here steps there') : there = there' := by
  induction h with
  | arrived here =>
    cases h'
    rfl
  | stay hhere h ih =>
    cases h' with
    | stay _ h' => exact ih h'
  | up hhere h ih =>
    cases h' with
    | up _ h' => exact ih h'
  | enter hhere hentry hlink h ih =>
    cases h' with
    | enter _ _ _ h' => exact ih h'
    | link hhere' hentry' h' =>
      rw [hhere] at hhere'
      cases hhere'
      rw [hentry] at hentry'
      cases hentry'
      exact absurd rfl (hlink _)
  | link hhere hentry h ih =>
    cases h' with
    | enter hhere' hentry' hlink' h' =>
      rw [hhere] at hhere'
      cases hhere'
      rw [hentry] at hentry'
      cases hentry'
      exact absurd rfl (hlink' _)
    | link hhere' hentry' h' =>
      rw [hhere] at hhere'
      cases hhere'
      rw [hentry] at hentry'
      cases hentry'
      exact ih h'

/-! ## Canonical places -/

theorem holdsFile_iff {place : Place} :
    fs.holdsFile place = true ↔ ∃ bytes, fs.node? place = some (.file bytes) := by
  unfold holdsFile
  split
  · next bytes hnode => exact iff_of_true rfl ⟨bytes, hnode⟩
  · next hnode => exact iff_of_false (by decide) fun ⟨bytes, h⟩ => hnode bytes h

theorem follow_enter {links : Nat} {here : Place} {name : String} {rest : List Step}
    {entries : List (String × Node)} {n : Node} (hhere : fs.node? here = some (.directory entries))
    (hshort : ¬ nameLimit < name.utf8ByteSize) (hentry : entries.lookup name = some n)
    (hlink : ∀ target, n ≠ .link target) :
    fs.follow links here (.enter name :: rest) = fs.follow links (here ++ [name]) rest := by
  rw [follow, hhere]
  dsimp only
  rw [if_neg hshort, hentry]
  cases n with
  | link target => exact absurd rfl (hlink target)
  | file _ | directory _ => rfl

theorem follow_link {links : Nat} {here : Place} {name target : String} {rest : List Step}
    {entries : List (String × Node)} (hhere : fs.node? here = some (.directory entries))
    (hshort : ¬ nameLimit < name.utf8ByteSize)
    (hentry : entries.lookup name = some (.link target)) :
    fs.follow (links + 1) here (.enter name :: rest) =
      fs.follow links (if (Path.ofText target).isAbsolute then [] else here)
        (Step.ofTarget target ++ rest) := by
  rw [follow, hhere]
  dsimp only
  rw [if_neg hshort, hentry]

/-- Names that go down to a file from a directory are followed there. -/
theorem follow_down {links : Nat} {here names : Place} {bytes : List UInt8}
    (hnames : ∀ name ∈ names, IsFileName name)
    (h : fs.node? (here ++ names) = some (.file bytes)) :
    fs.follow links here (names.map Step.ofName) = .ok (here ++ names) := by
  induction names generalizing here with
  | nil => rw [List.map_nil, follow, List.append_nil]
  | cons name names ih =>
    rw [List.forall_mem_cons] at hnames
    rw [node?, Node.at?_append] at h
    obtain ⟨d, hhere, hbelow⟩ := Option.bind_eq_some_iff.1 h
    obtain ⟨entries, child, rfl, hentry, hchild⟩ := Node.at?_cons hbelow
    have hfile : fs.node? (here ++ [name] ++ names) = some (.file bytes) := by
      rw [List.append_assoc, List.singleton_append, node?, Node.at?_append]
      exact h
    have hstep : Step.ofName name = .enter name := by
      rw [Step.ofName, if_neg hnames.1.not_up, if_neg hnames.1.not_here]
    -- There is a file further down, so that the entry cannot be a link.
    have hlink := Node.ne_link_of_at? hchild fun _ => Node.noConfusion
    have hrest := ih hnames.2 hfile
    rw [List.append_assoc, List.singleton_append] at hrest
    rw [List.map_cons, hstep, follow_enter hhere (Nat.not_lt.2 hnames.1.short) hentry hlink, hrest]

/-- What is found on the way does not depend on the working directory. -/
theorem follow_inDirectory (directory : Place) (links : Nat) (here : Place) (steps : List Step) :
    (fs.inDirectory directory).follow links here steps = fs.follow links here steps := by
  have hnode : ∀ place, (fs.inDirectory directory).node? place = fs.node? place := fun _ => rfl
  fun_induction fs.follow links here steps with
  | case1 links here => rw [follow]
  | case2 links here rest entries hhere ih | case3 links here rest entries hhere ih =>
    rw [follow, hnode, hhere]
    exact ih
  | case4 links here rest entries hhere name hlong =>
    rw [follow, hnode, hhere]
    exact if_pos hlong
  | case5 links here rest entries hhere name hlong hentry =>
    rw [follow, hnode, hhere]
    dsimp only
    rw [if_neg hlong, hentry]
  | case6 here rest entries hhere name hlong target hentry =>
    rw [follow, hnode, hhere]
    dsimp only
    rw [if_neg hlong, hentry]
  | case7 here rest entries hhere name hlong target hentry links start ih =>
    rw [follow, hnode, hhere]
    dsimp only
    rw [if_neg hlong, hentry]
    exact ih
  | case8 links here rest entries hhere name hlong n hlink hentry ih =>
    have hsame : (fs.inDirectory directory).node? here = some (.directory entries) := hhere
    rw [follow_enter hsame hlong hentry hlink, ih]
  | case9 links here step rest hhere =>
    rw [follow, hnode]
    split
    · next entries hdirectory => exact absurd hdirectory (hhere entries)
    · rfl

theorem file?_inDirectory (directory : Place) {p : Path} (h : p.isAbsolute = true) :
    (fs.inDirectory directory).file? p = fs.file? p := by
  have hstart : (fs.inDirectory directory).startOf p = fs.startOf p := by
    rw [startOf, startOf, if_pos h, if_pos h]
  have hlocate : (fs.inDirectory directory).locate p = fs.locate p := by
    rw [locate, locate, hstart, follow_inDirectory]
  rw [file?, file?, place?, place?, hlocate]
  rfl

theorem file?_of_locate {p : Path} {place : Place} (h : fs.locate p = .ok place)
    (hfile : fs.holdsFile place = true) : fs.file? p = .ok (some place) := by
  rw [file?, place?, h]
  simp [Except.map, Option.filter, hfile]

theorem locate_of_file? {p : Path} {place : Place} (h : fs.file? p = .ok (some place)) :
    fs.locate p = .ok place ∧ fs.holdsFile place = true := by
  rw [file?, place?] at h
  split at h
  · next there hlocate =>
    have hkept : (some there).filter fs.holdsFile = some place := Except.ok.inj h
    obtain ⟨hplace, hfile⟩ := Option.filter_eq_some_iff.1 hkept
    cases hplace
    exact ⟨hlocate, hfile⟩
  · cases h
  · cases h

theorem leadsTo_of_file? {p : Path} {place : Place} (h : fs.file? p = .ok (some place)) :
    fs.LeadsTo p place := by
  have hlocate := (locate_of_file? h).1
  rw [locate] at hlocate
  split at hlocate
  · cases hlocate
  · split at hlocate
    · cases hlocate
    · exact leads_of_follow hlocate

/-- The path of a file leads to it, if the path is short enough to be followed. -/
theorem IsSound.file?_ofNames (h : fs.IsSound) {place : Place}
    (hfile : fs.holdsFile place = true) :
    fs.file? (.ofNames place) =
      if (Path.ofNames place).text.utf8ByteSize < pathLimit then .ok (some place)
      else .error (.nameTooLong (Path.ofNames place).text) := by
  obtain ⟨bytes, hnode⟩ := holdsFile_iff.1 hfile
  have hnames := h.names hnode
  have hzero : ¬ (Path.ofNames place).text.toList.contains '\x00' = true := by
    simpa using Path.zero_notMem_text_ofNames hnames
  split
  · next hshort =>
    refine file?_of_locate ?_ hfile
    rw [locate, if_neg hzero, if_neg (Nat.not_le.2 hshort)]
    exact follow_down hnames hnode
  · next hlong =>
    rw [file?, place?, locate, if_neg hzero, if_pos (Nat.not_lt.1 hlong)]
    rfl

theorem IsSound.isCanonical (h : fs.IsSound) {place : Place} (hfile : fs.holdsFile place = true) :
    fs.IsCanonical (.ofNames place) := by
  obtain ⟨bytes, hnode⟩ := holdsFile_iff.1 hfile
  refine ⟨rfl, fun name hname => ?_, fun k target => ?_, bytes, hnode⟩
  · have hname := h.names hnode name hname
    exact ⟨hname.not_here, hname.not_up⟩
  · rw [node?, ← List.take_append_drop k place, Node.at?_append] at hnode
    obtain ⟨n, hn, hbelow⟩ := Option.bind_eq_some_iff.1 hnode
    rw [node?, Path.ofNames, hn, ne_eq, Option.some_inj]
    exact Node.ne_link_of_at? hbelow (fun _ => Node.noConfusion) target

/-- The first path that leads to a file comes after paths that do not. -/
theorem firstFile?_eq_ok_iff {paths : List Path} {place : Place} :
    fs.firstFile? paths = .ok (some place) ↔
      ∃ earlier p later, paths = earlier ++ p :: later ∧ (∀ q ∈ earlier, fs.file? q = .ok none) ∧
        fs.file? p = .ok (some place) := by
  induction paths with
  | nil =>
    refine iff_of_false (by simp [firstFile?]) ?_
    rintro ⟨earlier, p, later, hnil, -⟩
    exact List.append_ne_nil_of_right_ne_nil _ (List.cons_ne_nil _ _) hnil.symm
  | cons first paths ih =>
    constructor
    · intro h
      rw [firstFile?] at h
      split at h
      · next hnone =>
        obtain ⟨earlier, p, later, rfl, hearlier, hp⟩ := ih.1 h
        exact ⟨first :: earlier, p, later, rfl, List.forall_mem_cons.2 ⟨hnone, hearlier⟩, hp⟩
      · exact ⟨[], first, paths, rfl, fun q hq => absurd hq List.not_mem_nil, h⟩
    · rintro ⟨earlier, p, later, hpaths, hearlier, hp⟩
      cases earlier with
      | nil =>
        cases hpaths
        rw [firstFile?, hp]
      | cons q earlier =>
        cases hpaths
        rw [List.forall_mem_cons] at hearlier
        rw [firstFile?, hearlier.1]
        exact ih.2 ⟨earlier, p, later, rfl, hearlier.2, hp⟩

theorem firstFile?_inDirectory (directory : Place) {paths : List Path}
    (h : ∀ p ∈ paths, p.isAbsolute = true) :
    (fs.inDirectory directory).firstFile? paths = fs.firstFile? paths := by
  induction paths with
  | nil => rfl
  | cons p paths ih =>
    rw [List.forall_mem_cons] at h
    rw [firstFile?, firstFile?, file?_inDirectory directory h.1, ih h.2]

end FileSystem

/-! ## Imports -/

/-- The same machine, with another working directory. -/
def Machine.inDirectory (m : Machine) (directory : Place) : Machine :=
  { m with files := m.files.inDirectory directory }

section

variable (m : Machine) (current : Option Path) (text : String)

/-- The path of an import as it is written, seen from the current file or from the
working directory. -/
def literalPath : Path :=
  match current with
  | some file => file.parent.join (.ofText text)
  | none => (Path.ofNames m.files.directory).join (.ofText text)

/-- An import takes the first of its paths that leads to a file. -/
def Takes (p : Path) : Prop :=
  ∃ earlier later, importCandidates m current text = .ok (earlier ++ p :: later) ∧
    (∀ q ∈ earlier, m.files.file? q = .ok none) ∧ ∃ place, m.files.file? p = .ok (some place)

end

variable {m : Machine} {current : Option Path} {text : String} {place : Place}

theorem importCandidates_eq (m : Machine) (current : Option Path) (text : String) :
    importCandidates m current text =
      if m.sourceExtension.toList.isSuffixOf (literalPath m current text).name.toList then
        .ok [literalPath m current text]
      else
        (extendName m.sourceExtension (literalPath m current text)).map fun extended =>
          [literalPath m current text, extended] := by
  cases current <;> rfl

theorem importPlace_eq_ok_iff :
    importPlace m current text = .ok place ↔
      ∃ earlier p later, importCandidates m current text = .ok (earlier ++ p :: later) ∧
        (∀ q ∈ earlier, m.files.file? q = .ok none) ∧ m.files.file? p = .ok (some place) := by
  unfold importPlace
  cases hcandidates : importCandidates m current text with
  | error fault => simp
  | ok candidates =>
    simp only [Except.ok.injEq]
    rw [← FileSystem.firstFile?_eq_ok_iff]
    cases m.files.firstFile? candidates with
    | error fault => simp
    | ok outcome => cases outcome <;> simp

/-- The path as it is written is looked at first. -/
theorem importCandidates_of_extendName {extended : Path}
    (hextended : extendName m.sourceExtension (literalPath m current text) = .ok extended) :
    ∃ later, importCandidates m current text = .ok (literalPath m current text :: later) := by
  rw [importCandidates_eq]
  split
  · exact ⟨[], rfl⟩
  · rw [hextended]
    exact ⟨[extended], rfl⟩

/-- A file under the path as it is written is the one that is imported. -/
theorem importPlace_of_literal {extended : Path}
    (hextended : extendName m.sourceExtension (literalPath m current text) = .ok extended)
    (hfile : m.files.file? (literalPath m current text) = .ok (some place)) :
    importPlace m current text = .ok place := by
  obtain ⟨later, hcandidates⟩ := importCandidates_of_extendName hextended
  exact importPlace_eq_ok_iff.2 ⟨[], _, later, hcandidates,
    fun q hq => absurd hq List.not_mem_nil, hfile⟩

/-- A path as it is written that cannot be followed at all is a fault. -/
theorem importPlace_of_literal_fault {extended : Path} {fault : FileFault}
    (hextended : extendName m.sourceExtension (literalPath m current text) = .ok extended)
    (hfile : m.files.file? (literalPath m current text) = .error fault) :
    importPlace m current text = .error (.fault (.file fault)) := by
  obtain ⟨later, hcandidates⟩ := importCandidates_of_extendName hextended
  simp only [importPlace, hcandidates, FileSystem.firstFile?, hfile]

theorem exists_takes_of_importPlace (h : importPlace m current text = .ok place) :
    ∃ p, Takes m current text p ∧ m.files.LeadsTo p place := by
  obtain ⟨earlier, p, later, hcandidates, hearlier, hp⟩ := importPlace_eq_ok_iff.1 h
  exact ⟨p, ⟨earlier, later, hcandidates, hearlier, place, hp⟩, FileSystem.leadsTo_of_file? hp⟩

/-- An import gives the entry that the path which it takes leads to. -/
theorem Takes.importPlace_eq {p : Path} {entry : Place} (htakes : Takes m current text p)
    (hentry : m.files.LeadsTo p entry) : importPlace m current text = .ok entry := by
  obtain ⟨earlier, later, hcandidates, hearlier, place, hp⟩ := htakes
  rw [← (FileSystem.leadsTo_of_file? hp).unique hentry]
  exact importPlace_eq_ok_iff.2 ⟨earlier, p, later, hcandidates, hearlier, hp⟩

theorem holdsFile_of_importPlace (h : importPlace m current text = .ok place) :
    m.files.holdsFile place = true := by
  obtain ⟨_, p, _, -, -, hp⟩ := importPlace_eq_ok_iff.1 h
  exact (FileSystem.locate_of_file? hp).2

/-! ## The working directory -/

theorem isAbsolute_of_mem_candidates {candidates : List Path}
    (hliteral : (literalPath m current text).isAbsolute = true)
    (h : importCandidates m current text = .ok candidates) :
    ∀ p ∈ candidates, p.isAbsolute = true := by
  rw [importCandidates_eq] at h
  split at h
  · cases h
    exact List.forall_mem_singleton.2 hliteral
  · cases hextended : extendName m.sourceExtension (literalPath m current text) with
    | error fault =>
      rw [hextended] at h
      cases h
    | ok extended =>
      rw [hextended] at h
      cases h
      exact List.forall_mem_cons.2
        ⟨hliteral, List.forall_mem_singleton.2 (Path.isAbsolute_extendName hextended hliteral)⟩

/-- Where the path that is written or the current file is absolute, so is where an import
looks, and the working directory is not asked. -/
theorem literalPath_of_isAbsolute (directory : Place)
    (h : (Path.ofText text).isAbsolute = true ∨ ∃ file ∈ current, file.isAbsolute = true) :
    literalPath (m.inDirectory directory) current text = literalPath m current text ∧
      (literalPath m current text).isAbsolute = true := by
  cases current with
  | some file =>
    refine ⟨rfl, ?_⟩
    rcases h with habsolute | ⟨_, ⟨⟩, hfile⟩
    · rw [literalPath, Path.join, if_pos habsolute]
      exact habsolute
    · have hparent : file.parent.isAbsolute = true := hfile
      exact Path.isAbsolute_join hparent _
  | none =>
    rcases h with habsolute | ⟨_, ⟨⟩, -⟩
    rw [literalPath, literalPath, Path.join, Path.join, if_pos habsolute, if_pos habsolute]
    exact ⟨rfl, habsolute⟩

theorem importPlace_inDirectory (directory : Place)
    (h : (Path.ofText text).isAbsolute = true ∨ ∃ file ∈ current, file.isAbsolute = true) :
    importPlace (m.inDirectory directory) current text = importPlace m current text := by
  obtain ⟨hliteral, habsolute⟩ := literalPath_of_isAbsolute directory h
  have hcandidates : importCandidates (m.inDirectory directory) current text =
      importCandidates m current text := by
    rw [importCandidates_eq, importCandidates_eq, hliteral]
    rfl
  unfold importPlace
  rw [hcandidates]
  cases hlist : importCandidates m current text with
  | error fault => rfl
  | ok candidates =>
    have hfirst : (m.inDirectory directory).files.firstFile? candidates =
        m.files.firstFile? candidates :=
      FileSystem.firstFile?_inDirectory directory (isAbsolute_of_mem_candidates habsolute hlist)
    dsimp only
    rw [hfirst]

/-! ## Paths of places -/

theorem noSlash_literalPath (hm : m.files.IsSound) (hspelled : ∀ file ∈ current, file.IsSpelled) :
    ∀ name ∈ (literalPath m current text).names, '/' ∉ name.toList := by
  have htext : ∀ name ∈ (Path.ofText text).names, '/' ∉ name.toList :=
    fun name hname => (Path.mem_namesOf hname).2.2
  have hjoin : ∀ base : Path, (∀ name ∈ base.names, '/' ∉ name.toList) →
      ∀ name ∈ (base.join (.ofText text)).names, '/' ∉ name.toList := by
    intro base hbase name hname
    rw [Path.join] at hname
    split at hname
    · exact htext name hname
    · exact (List.mem_append.1 hname).elim (hbase name) (htext name)
  cases current with
  | some file =>
    obtain ⟨spelling, rfl⟩ := hspelled file rfl
    exact hjoin _ fun name hname => (Path.mem_namesOf (List.dropLast_subset _ hname)).2.2
  | none =>
    obtain ⟨entries, hdirectory⟩ := hm.directory
    exact hjoin _ fun name hname => (hm.names hdirectory name hname).noSlash

theorem noSlash_name {p : Path} (h : ∀ name ∈ p.names, '/' ∉ name.toList) :
    '/' ∉ p.name.toList := by
  by_cases hnames : p.names = []
  · rw [Path.name, hnames]
    exact List.not_mem_nil
  · exact h _ (Path.name_mem hnames)

/-- An extension that is asked for, or that a name has already, is one for every name. -/
theorem isExtension_of_importCandidates {candidates : List Path} (hm : m.files.IsSound)
    (hspelled : ∀ file ∈ current, file.IsSpelled)
    (h : importCandidates m current text = .ok candidates) :
    Path.IsExtension m.sourceExtension := by
  have hslash : '/' ∉ (literalPath m current text).name.toList :=
    noSlash_name (noSlash_literalPath hm hspelled)
  rw [importCandidates_eq] at h
  split at h
  · next hsuffix =>
    have hsub := (List.isSuffixOf_iff_suffix.1 hsuffix).subset
    exact Path.isExtension_of_noSlash fun hmem => hslash (hsub hmem)
  · cases hextended : extendName m.sourceExtension (literalPath m current text) with
    | error fault =>
      rw [hextended] at h
      cases h
    | ok extended =>
      have hname := Path.name_ne_of_extendName hextended
      exact (Path.exists_extendName_iff hname hslash m.head?_sourceExtension).1 ⟨_, hextended⟩

/-- Nothing is put before an absolute path. -/
theorem literalPath_text_ofNames {names : List String} (hne : names ≠ [])
    (hnames : ∀ name ∈ names, IsFileName name) (m : Machine) (current : Option Path) :
    literalPath m current (Path.ofNames names).text = .ofNames names := by
  have hjoin : ∀ base : Path, base.join (.ofText (Path.ofNames names).text) = .ofNames names := by
    intro base
    rw [Path.ofText_text_ofNames hne hnames]
    rfl
  cases current <;> exact hjoin _

theorem exists_extendName_ofNames {names : List String} (hne : names ≠ [])
    (hnames : ∀ name ∈ names, IsFileName name) (m : Machine)
    (hextension : Path.IsExtension m.sourceExtension) :
    ∃ extended, extendName m.sourceExtension (.ofNames names) = .ok extended := by
  have hname := hnames _ (Path.name_mem (p := .ofNames names) hne)
  exact (Path.exists_extendName_iff hname.nonempty hname.noSlash m.head?_sourceExtension).2
    hextension

/-- To import the path of a file is to import the file, unless the path is too long. -/
theorem importPlace_text (hm : m.files.IsSound) (hextension : Path.IsExtension m.sourceExtension)
    (hfile : m.files.holdsFile place = true) (directory : Place) (current : Option Path) :
    let path := (Path.ofNames place).text
    importPlace (m.inDirectory directory) current path =
      if path.utf8ByteSize < FileSystem.pathLimit then .ok place
      else .error (.fault (.file (.nameTooLong path))) := by
  intro path
  obtain ⟨bytes, hnode⟩ := FileSystem.holdsFile_iff.1 hfile
  have hnames := hm.names hnode
  have hne : place ≠ [] := by
    rintro rfl
    have hroot := hm.root
    rw [Option.some.inj hnode] at hroot
    cases hroot
  have hliteral := literalPath_text_ofNames hne hnames (m.inDirectory directory) current
  obtain ⟨extended, hextended⟩ := exists_extendName_ofNames hne hnames m hextension
  have hsame : (m.inDirectory directory).files.file? (.ofNames place) =
      m.files.file? (.ofNames place) := FileSystem.file?_inDirectory directory rfl
  have hfound := hsame.trans (hm.file?_ofNames hfile)
  split
  · next hshort =>
    rw [if_pos hshort] at hfound
    rw [← hliteral] at hextended hfound
    exact importPlace_of_literal hextended hfound
  · next hlong =>
    rw [if_neg hlong] at hfound
    rw [← hliteral] at hextended
    exact importPlace_of_literal_fault hextended (hliteral ▸ hfound)

/-- The place that an import gives is a canonical one, and the import of its own path gives
it again from everywhere, unless the path is too long for systems to follow. An import takes
the first of its paths that leads to a file, and imports whose paths lead to the same entry
give the same place. Where the text or the current file is absolute, the working directory is
without effect. A file under the path as it is written comes before one under the extended
path. -/
theorem importPlace_canonical (m : Machine) (hm : m.files.IsSound) :
    (∀ current text place, importPlace m current text = .ok place →
      m.files.IsCanonical (.ofNames place) ∧
        ((∀ file ∈ current, file.IsSpelled) → ∀ directory current',
          let path := (Path.ofNames place).text
          importPlace (m.inDirectory directory) current' path =
            if path.utf8ByteSize < FileSystem.pathLimit then .ok place
            else .error (.fault (.file (.nameTooLong path))))) ∧
    (∀ current text place, importPlace m current text = .ok place →
      ∃ p, Takes m current text p ∧ m.files.LeadsTo p place) ∧
    (∀ directory directory' current current' text text' p p' entry,
      Takes (m.inDirectory directory) current text p →
      Takes (m.inDirectory directory') current' text' p' →
      (m.files.inDirectory directory).LeadsTo p entry →
      (m.files.inDirectory directory').LeadsTo p' entry →
      ∃ place, importPlace (m.inDirectory directory) current text = .ok place ∧
        importPlace (m.inDirectory directory') current' text' = .ok place) ∧
    (∀ directory current text,
      ((Path.ofText text).isAbsolute = true ∨ ∃ file ∈ current, file.isAbsolute = true) →
      importPlace (m.inDirectory directory) current text = importPlace m current text) ∧
    (∀ current text extended place place',
      extendName m.sourceExtension (literalPath m current text) = .ok extended →
      m.files.file? (literalPath m current text) = .ok (some place) →
      m.files.file? extended = .ok (some place') → importPlace m current text = .ok place) := by
  refine ⟨fun current text place h => ⟨?_, fun hspelled directory current' => ?_⟩,
    fun current text place h => exists_takes_of_importPlace h, ?_, ?_, ?_⟩
  · exact hm.isCanonical (holdsFile_of_importPlace h)
  · obtain ⟨_, _, _, hcandidates, -⟩ := importPlace_eq_ok_iff.1 h
    exact importPlace_text hm (isExtension_of_importCandidates hm hspelled hcandidates)
      (holdsFile_of_importPlace h) directory current'
  · intro directory directory' current current' text text' p p' entry htakes htakes' hentry
      hentry'
    exact ⟨entry, htakes.importPlace_eq hentry, htakes'.importPlace_eq hentry'⟩
  · exact fun directory current text h => importPlace_inDirectory directory h
  · intro current text extended place place' hextended hplace _
    exact importPlace_of_literal hextended hplace

/-- Two files of which one has the extension, and a link to their directory. -/
def aliasedFiles : Machine where
  files := ⟨.directory [("lib", .directory [("data", .file []), ("data.ssli", .file [])]),
    ("alias", .link "lib")], ["lib"]⟩
  environment := []
  users := []

theorem isSound_aliasedFiles : aliasedFiles.files.IsSound := by
  refine ⟨rfl, ⟨_, rfl⟩, ?_⟩
  have hlib : ∀ entry ∈ [("data", Node.file []), ("data.ssli", Node.file [])],
      IsFileName entry.1 ∧ entry.2.HasFileNames :=
    List.forall_mem_cons.2 ⟨⟨by decide, Node.hasFileNames_file _⟩,
      List.forall_mem_singleton.2 ⟨by decide, Node.hasFileNames_file _⟩⟩
  exact Node.hasFileNames_directory (List.forall_mem_cons.2
    ⟨⟨by decide, Node.hasFileNames_directory hlib⟩,
      List.forall_mem_singleton.2 ⟨by decide, Node.hasFileNames_link _⟩⟩)

theorem importPlace_aliasedFiles :
    importPlace aliasedFiles none "../alias/data" = .ok ["lib", "data"] := by
  have hlocate : aliasedFiles.files.locate ⟨.root, ["lib", "..", "alias", "data"]⟩ =
      .ok ["lib", "data"] := by
    change aliasedFiles.files.follow 40 [] [.enter "lib", .up, .enter "alias", .enter "data"] = _
    rw [FileSystem.follow]
    change aliasedFiles.files.follow 40 ["lib"] [.up, .enter "alias", .enter "data"] = _
    rw [FileSystem.follow]
    change aliasedFiles.files.follow 40 [] [.enter "alias", .enter "data"] = _
    rw [FileSystem.follow]
    change aliasedFiles.files.follow 39 [] [.enter "lib", .enter "data"] = _
    cbv
  exact importPlace_of_literal rfl (FileSystem.file?_of_locate hlocate rfl)

/-- The path goes up from the working directory and through the link. -/
theorem importPlace_canonical_alias :
    aliasedFiles.files.IsSound ∧
      importPlace aliasedFiles none "../alias/data" = .ok ["lib", "data"] ∧
      aliasedFiles.files.IsCanonical (.ofNames ["lib", "data"]) ∧
      importPlace (aliasedFiles.inDirectory []) (some (.ofText "src/main.ssli")) "/lib/data" =
        .ok ["lib", "data"] := by
  have hspelled : ∀ file ∈ (none : Option Path), file.IsSpelled :=
    fun _ h => absurd h (Option.not_mem_none _)
  obtain ⟨hcanonical, hfixed⟩ := (importPlace_canonical aliasedFiles isSound_aliasedFiles).1 none
    "../alias/data" ["lib", "data"] importPlace_aliasedFiles
  exact ⟨isSound_aliasedFiles, importPlace_aliasedFiles, hcanonical, hfixed hspelled [] _⟩

/-! ### A file too deep -/

/-- Each name of an absolute path comes after a slash. -/
theorem Path.utf8ByteSize_text_ofNames {names : List String} (hne : names ≠ []) :
    (Path.ofNames names).text.utf8ByteSize = (names.map fun name => name.utf8ByteSize + 1).sum := by
  have hslash : Char.utf8Size '/' = 1 := by decide
  rw [← String.utf8Len_toList, Path.text_ofNames, String.utf8Len_cons, hslash]
  induction names with
  | nil => exact absurd rfl hne
  | cons name names ih =>
    cases names with
    | nil => simp [Nat.add_comm]
    | cons next names =>
      have hrest := ih (List.cons_ne_nil _ _)
      rw [List.map_cons] at hrest
      rw [List.map_cons, List.map_cons, List.intercalate_cons_cons, String.utf8Len_append,
        String.utf8Len_append, String.utf8Len_cons, String.utf8Len_nil, hslash, List.map_cons,
        List.sum_cons, ← hrest, String.utf8Len_toList]
      omega

/-- As long a name as there may be. -/
def longName : String := String.ofList (List.replicate FileSystem.nameLimit 'a')

/-- Directories one inside the other, and a file in the innermost. -/
def nested : Nat → Node
  | 0 => .directory [("f", .file [])]
  | depth + 1 => .directory [(longName, nested depth)]

def middlePlace : Place := List.replicate 8 longName

def deepPlace : Place := middlePlace ++ (middlePlace ++ ["f"])

/-- A file whose path is too long to be followed, and a link to a directory half way down. -/
def deepFiles : Machine where
  files := ⟨.directory [("l", .link (Path.ofNames middlePlace).text), (longName, nested 15)], []⟩
  environment := []
  users := []

theorem utf8Len_replicate (k : Nat) : String.utf8Len (List.replicate k 'a') = k := by
  induction k with
  | zero => rfl
  | succ k ih =>
    rw [List.replicate_succ, String.utf8Len_cons, ih]
    rfl

theorem utf8ByteSize_longName : longName.utf8ByteSize = FileSystem.nameLimit := by
  rw [longName, String.utf8ByteSize_ofList, utf8Len_replicate]

theorem isFileName_longName : IsFileName longName := by
  have hlong : ∀ name : String, name.utf8ByteSize < 3 → longName ≠ name := by
    rintro _ hshort rfl
    rw [utf8ByteSize_longName, FileSystem.nameLimit] at hshort
    omega
  have hletters : ∀ c ∈ longName.toList, c = 'a' := by
    intro c hc
    rw [longName, String.toList_ofList] at hc
    exact List.eq_of_mem_replicate hc
  exact ⟨hlong "" (by decide), hlong "." (by decide), hlong ".." (by decide),
    fun h => absurd (hletters _ h) (by decide), fun h => absurd (hletters _ h) (by decide),
    utf8ByteSize_longName.le⟩

theorem isFileName_of_mem_middlePlace : ∀ name ∈ middlePlace, IsFileName name := by
  intro name hname
  rw [List.eq_of_mem_replicate hname]
  exact isFileName_longName

theorem hasFileNames_nested (depth : Nat) : (nested depth).HasFileNames := by
  induction depth with
  | zero =>
    exact Node.hasFileNames_directory
      (List.forall_mem_singleton.2 ⟨by decide, Node.hasFileNames_file _⟩)
  | succ depth ih =>
    exact Node.hasFileNames_directory (List.forall_mem_singleton.2 ⟨isFileName_longName, ih⟩)

theorem at?_nested (depth : Nat) :
    (nested depth).at? (List.replicate depth longName ++ ["f"]) = some (.file []) := by
  induction depth with
  | zero => rfl
  | succ depth ih =>
    rw [List.replicate_succ, List.cons_append, Node.at?, nested, Node.child?, List.lookup_cons_self]
    exact ih

theorem isSound_deepFiles : deepFiles.files.IsSound := by
  refine ⟨rfl, ⟨_, rfl⟩, Node.hasFileNames_directory (List.forall_mem_cons.2
    ⟨⟨by decide, Node.hasFileNames_link _⟩,
      List.forall_mem_singleton.2 ⟨isFileName_longName, hasFileNames_nested 15⟩⟩)⟩

theorem node?_deepPlace : deepFiles.files.node? deepPlace = some (.file []) := by
  have hother : (longName == "l") = false := by
    refine beq_eq_false_iff_ne.2 fun h => ?_
    have hsize := utf8ByteSize_longName
    rw [h] at hsize
    cases hsize
  have hdeep : deepPlace = longName :: (List.replicate 15 longName ++ ["f"]) := by
    rw [deepPlace, middlePlace, ← List.append_assoc, ← List.replicate_add, List.replicate_succ,
      List.cons_append]
  have hlookup : [("l", Node.link (Path.ofNames middlePlace).text), (longName, nested 15)].lookup
      longName = some (nested 15) := by
    rw [List.lookup_cons, hother, List.lookup_cons_self]
  rw [FileSystem.node?, hdeep]
  change (List.lookup longName _).bind _ = _
  rw [hlookup, Option.bind_some]
  exact at?_nested 15

/-- The way through the link to the file. -/
def linkedPlace : Place := "l" :: (middlePlace ++ ["f"])

theorem isFileName_of_mem_linkedPlace : ∀ name ∈ linkedPlace, IsFileName name :=
  List.forall_mem_cons.2 ⟨by decide, List.forall_mem_append.2
    ⟨isFileName_of_mem_middlePlace, List.forall_mem_singleton.2 (by decide)⟩⟩

theorem utf8ByteSize_deepFiles :
    (Path.ofNames linkedPlace).text.utf8ByteSize < FileSystem.pathLimit ∧
      FileSystem.pathLimit ≤ (Path.ofNames deepPlace).text.utf8ByteSize := by
  have hmiddle : (middlePlace.map fun name => name.utf8ByteSize + 1).sum = 2048 := by
    rw [middlePlace, List.map_replicate, List.sum_replicate, utf8ByteSize_longName]
    rfl
  have hlinked : (Path.ofNames linkedPlace).text.utf8ByteSize = 2052 := by
    rw [linkedPlace, Path.utf8ByteSize_text_ofNames (List.cons_ne_nil _ _), List.map_cons,
      List.map_append, List.sum_cons, List.sum_append, hmiddle]
    rfl
  have hne : deepPlace ≠ [] := by simp [deepPlace]
  have hdeep : (Path.ofNames deepPlace).text.utf8ByteSize = 4098 := by
    rw [Path.utf8ByteSize_text_ofNames hne, deepPlace, List.map_append, List.map_append,
      List.sum_append, List.sum_append, hmiddle]
    rfl
  rw [hlinked, hdeep]
  decide

/-- The link leads half way down, and the names after it the rest of the way. -/
theorem locate_linkedPlace : deepFiles.files.locate (.ofNames linkedPlace) = .ok deepPlace := by
  have hmiddle : middlePlace ≠ [] := by simp [middlePlace]
  have htarget := Path.ofTarget_text_ofNames hmiddle isFileName_of_mem_middlePlace
  have habsolute : (Path.ofText (Path.ofNames middlePlace).text).isAbsolute = true := by
    rw [Path.ofText_text_ofNames hmiddle isFileName_of_mem_middlePlace]
    rfl
  have hzero : ¬ (Path.ofNames linkedPlace).text.toList.contains '\x00' = true := by
    simpa using Path.zero_notMem_text_ofNames isFileName_of_mem_linkedPlace
  have hlink : deepFiles.files.follow 40 [] (linkedPlace.map Step.ofName) =
      deepFiles.files.follow 39 [] (deepPlace.map Step.ofName) := by
    have hroot : deepFiles.files.node? [] = some (.directory
        [("l", .link (Path.ofNames middlePlace).text), (longName, nested 15)]) := rfl
    rw [linkedPlace, List.map_cons, show Step.ofName "l" = .enter "l" from rfl,
      FileSystem.follow_link hroot (by decide) rfl, if_pos habsolute, htarget, ← List.map_append,
      deepPlace]
  rw [FileSystem.locate, if_neg hzero, if_neg (Nat.not_le.2 utf8ByteSize_deepFiles.1)]
  refine hlink.trans (FileSystem.follow_down ?_ node?_deepPlace)
  exact isSound_deepFiles.names node?_deepPlace

theorem importPlace_linkedPlace :
    importPlace deepFiles none (Path.ofNames linkedPlace).text = .ok deepPlace := by
  have hnames := isFileName_of_mem_linkedPlace
  have hliteral := literalPath_text_ofNames (List.cons_ne_nil _ _) hnames deepFiles none
  obtain ⟨extended, hextended⟩ := exists_extendName_ofNames (List.cons_ne_nil _ _) hnames deepFiles
    (Path.isExtension_of_noSlash (by decide))
  have hfile : deepFiles.files.holdsFile deepPlace = true :=
    FileSystem.holdsFile_iff.2 ⟨[], node?_deepPlace⟩
  have hfound := FileSystem.file?_of_locate locate_linkedPlace hfile
  apply importPlace_of_literal
  · rw [linkedPlace, hliteral]
    exact hextended
  · rw [linkedPlace, hliteral]
    exact hfound

/-- The place that is reached through the link is not found again: its own path leads to it,
but is too long for systems to follow. -/
theorem importPlace_canonical_deep :
    deepFiles.files.IsSound ∧
      importPlace deepFiles none (Path.ofNames linkedPlace).text = .ok deepPlace ∧
      deepFiles.files.LeadsTo (.ofNames deepPlace) deepPlace ∧
      importPlace deepFiles none (Path.ofNames deepPlace).text =
        .error (.fault (.file (.nameTooLong (Path.ofNames deepPlace).text))) := by
  have hfile : deepFiles.files.holdsFile deepPlace = true :=
    FileSystem.holdsFile_iff.2 ⟨[], node?_deepPlace⟩
  have hleads : deepFiles.files.LeadsTo (.ofNames deepPlace) deepPlace := by
    have hnames := isSound_deepFiles.names node?_deepPlace
    have hfollow : deepFiles.files.follow 0 [] (deepPlace.map Step.ofName) = .ok deepPlace :=
      FileSystem.follow_down hnames node?_deepPlace
    exact FileSystem.leads_of_follow hfollow
  have hextension : Path.IsExtension deepFiles.sourceExtension :=
    Path.isExtension_of_noSlash (by decide)
  have hlong := (importPlace_text isSound_deepFiles hextension hfile [] none).trans
    (if_neg (Nat.not_lt.2 utf8ByteSize_deepFiles.2))
  exact ⟨isSound_deepFiles, importPlace_linkedPlace, hleads, hlong⟩

end SmallLisp
