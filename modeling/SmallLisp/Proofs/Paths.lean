import SmallLisp.FileSystem
import SmallLisp.Loading
import Mathlib.Data.List.Basic

/-! # Paths and their texts

A path whose names are names of files is read back from its text. Whether the last name
of a path can be extended depends on the extension alone. -/

namespace SmallLisp

/-- A name that systems admit for an entry of a directory. -/
structure IsFileName (name : String) : Prop where
  nonempty : name ≠ ""
  not_here : name ≠ "."
  not_up : name ≠ ".."
  noSlash : '/' ∉ name.toList
  noZero : '\x00' ∉ name.toList
  short : name.utf8ByteSize ≤ FileSystem.nameLimit

theorem isFileName_iff {name : String} :
    IsFileName name ↔ name ≠ "" ∧ name ≠ "." ∧ name ≠ ".." ∧ '/' ∉ name.toList ∧
      '\x00' ∉ name.toList ∧ name.utf8ByteSize ≤ FileSystem.nameLimit :=
  ⟨fun ⟨h₁, h₂, h₃, h₄, h₅, h₆⟩ => ⟨h₁, h₂, h₃, h₄, h₅, h₆⟩,
    fun ⟨h₁, h₂, h₃, h₄, h₅, h₆⟩ => ⟨h₁, h₂, h₃, h₄, h₅, h₆⟩⟩

instance (name : String) : Decidable (IsFileName name) := decidable_of_iff' _ isFileName_iff

namespace Path

/-- The path of some text. -/
def IsSpelled (p : Path) : Prop := ∃ text, p = ofText text

theorem isAbsolute_join {p : Path} (h : p.isAbsolute = true) (q : Path) :
    (p.join q).isAbsolute = true := by
  unfold join
  split
  · assumption
  · exact h

/-! ## Components -/

theorem components_ne_nil (cs : List Char) : components cs ≠ [] := by
  cases cs with
  | nil => exact List.cons_ne_nil _ _
  | cons c cs =>
    rw [components]
    split
    · exact List.cons_ne_nil _ _
    · split <;> exact List.cons_ne_nil _ _

theorem components_cons {c : Char} {cs : List Char} (hc : c ≠ '/') {name : List Char}
    {names : List (List Char)} (h : components cs = name :: names) :
    components (c :: cs) = (c :: name) :: names := by
  rw [components, if_neg hc, h]

theorem components_slash (cs : List Char) : components ('/' :: cs) = [] :: components cs := by
  rw [components, if_pos rfl]

/-- Characters without slashes extend the first component of what follows them. -/
theorem components_append {cs ds name : List Char} {names : List (List Char)}
    (hcs : '/' ∉ cs) (h : components ds = name :: names) :
    components (cs ++ ds) = (cs ++ name) :: names := by
  induction cs with
  | nil => exact h
  | cons c cs ih =>
    rw [List.mem_cons, not_or] at hcs
    exact components_cons (Ne.symm hcs.1) (ih hcs.2)

theorem components_of_noSlash {cs : List Char} (hcs : '/' ∉ cs) : components cs = [cs] := by
  have h : components (cs ++ []) = [cs ++ []] := components_append hcs rfl
  rwa [List.append_nil] at h

theorem slash_notMem_of_mem_components {cs name : List Char} (h : name ∈ components cs) :
    '/' ∉ name := by
  induction cs generalizing name with
  | nil =>
    rw [components, List.mem_singleton] at h
    rw [h]
    exact List.not_mem_nil
  | cons c cs ih =>
    by_cases hc : c = '/'
    · rw [hc, components_slash, List.mem_cons] at h
      rcases h with rfl | h
      · exact List.not_mem_nil
      · exact ih h
    · obtain ⟨first, rest, hrest⟩ := List.exists_cons_of_ne_nil (components_ne_nil cs)
      rw [hrest] at ih
      rw [components_cons hc hrest, List.mem_cons] at h
      rcases h with rfl | h
      · rw [List.mem_cons, not_or]
        exact ⟨Ne.symm hc, ih List.mem_cons_self⟩
      · exact ih (List.mem_cons_of_mem _ h)

theorem components_intercalate {names : List (List Char)} (hne : names ≠ [])
    (h : ∀ name ∈ names, '/' ∉ name) : components (['/'].intercalate names) = names := by
  induction names with
  | nil => exact absurd rfl hne
  | cons name names ih =>
    rw [List.forall_mem_cons] at h
    cases names with
    | nil =>
      rw [List.intercalate_singleton]
      exact components_of_noSlash h.1
    | cons next names =>
      rw [List.intercalate_cons_cons, List.append_assoc, List.singleton_append,
        components_append h.1 (components_slash _), List.append_nil,
        ih (List.cons_ne_nil _ _) h.2]

/-- A slash at the end of a text is followed by an empty component. -/
theorem components_append_slash (cs : List Char) :
    components (cs ++ ['/']) = components cs ++ [[]] := by
  induction cs with
  | nil => rfl
  | cons c cs ih =>
    rw [List.cons_append]
    by_cases hc : c = '/'
    · rw [hc, components_slash, components_slash, ih, List.cons_append]
    · obtain ⟨name, names, hnames⟩ := List.exists_cons_of_ne_nil (components_ne_nil cs)
      rw [hnames] at ih
      rw [components_cons hc ih, components_cons hc hnames]
      rfl

theorem mem_intercalate {c : Char} {names : List (List Char)} (h : c ∈ ['/'].intercalate names) :
    c = '/' ∨ ∃ name ∈ names, c ∈ name := by
  induction names with
  | nil => cases h
  | cons name names ih =>
    cases names with
    | nil =>
      rw [List.intercalate_singleton] at h
      exact .inr ⟨name, List.mem_cons_self, h⟩
    | cons next names =>
      rw [List.intercalate_cons_cons, List.append_assoc, List.singleton_append, List.mem_append,
        List.mem_cons] at h
      rcases h with h | h | h
      · exact .inr ⟨name, List.mem_cons_self, h⟩
      · exact .inl h
      · obtain hslash | ⟨later, hmem, hc⟩ := ih h
        · exact .inl hslash
        · exact .inr ⟨later, List.mem_cons_of_mem _ hmem, hc⟩

/-! ## Texts -/

/-- The names of a text are components that stand for themselves. -/
theorem mem_namesOf {text name : String} (h : name ∈ namesOf text) :
    name ≠ "" ∧ name ≠ "." ∧ '/' ∉ name.toList := by
  obtain ⟨hmem, hplain⟩ := List.mem_filter.1 h
  obtain ⟨cs, hcs, rfl⟩ := List.mem_map.1 hmem
  simp only [Bool.and_eq_true, decide_eq_true_eq] at hplain
  refine ⟨hplain.1, hplain.2, ?_⟩
  rw [String.toList_ofList]
  exact slash_notMem_of_mem_components hcs

theorem text_ofNames (names : List String) :
    (ofNames names).text.toList = '/' :: ['/'].intercalate (names.map String.toList) := by
  have hslash : "/".toList = ['/'] := by decide
  simp only [text, ofNames, Anchor.text, String.toList_append, String.toList_intercalate, hslash,
    List.singleton_append]

theorem components_text_ofNames {names : List String} (hne : names ≠ [])
    (h : ∀ name ∈ names, IsFileName name) :
    components (ofNames names).text.toList = [] :: names.map String.toList := by
  have hslash : ∀ cs ∈ names.map String.toList, '/' ∉ cs := by
    intro cs hcs
    obtain ⟨name, hname, rfl⟩ := List.mem_map.1 hcs
    exact (h name hname).noSlash
  rw [text_ofNames, components_slash,
    components_intercalate (fun hnil => hne (List.map_eq_nil_iff.1 hnil)) hslash]

theorem namesOf_text_ofNames {names : List String} (hne : names ≠ [])
    (h : ∀ name ∈ names, IsFileName name) : namesOf (ofNames names).text = names := by
  have hplain : ∀ name ∈ names, (name ≠ "" && name ≠ ".") = true := by
    intro name hname
    simp [(h name hname).nonempty, (h name hname).not_here]
  rw [namesOf, components_text_ofNames hne h]
  simp only [List.map_cons, List.map_map, Function.comp_def, String.ofList_toList, List.map_id']
  rw [List.filter_cons_of_neg (by decide), List.filter_eq_self.2 hplain]

theorem anchorOf_text_ofNames {names : List String} (hne : names ≠ [])
    (h : ∀ name ∈ names, IsFileName name) : anchorOf (ofNames names).text = .root := by
  obtain ⟨name, rest, rfl⟩ := List.exists_cons_of_ne_nil hne
  have hname := h name List.mem_cons_self
  obtain ⟨c, cs, hcs⟩ := List.exists_cons_of_ne_nil
    (mt String.toList_eq_nil_iff.1 hname.nonempty)
  have hc : c ≠ '/' := by
    rintro rfl
    exact hname.noSlash (hcs ▸ List.mem_cons_self)
  have hfirst : ∃ more, ['/'].intercalate ((name :: rest).map String.toList) = c :: more := by
    rw [List.map_cons, hcs]
    cases rest with
    | nil => exact ⟨cs, List.intercalate_singleton⟩
    | cons next rest => exact ⟨_, by rw [List.map_cons, List.intercalate_cons_cons]; rfl⟩
  obtain ⟨more, hmore⟩ := hfirst
  -- Two slashes at the start would be another anchor.
  have hstart : ((ofNames (name :: rest)).text.toList.takeWhile (· == '/')).length = 1 := by
    rw [text_ofNames, hmore, List.takeWhile_cons_of_pos rfl,
      List.takeWhile_cons_of_neg (by simpa using hc), List.length_singleton]
  rw [anchorOf, hstart]
  rfl

theorem zero_notMem_text_ofNames {names : List String} (h : ∀ name ∈ names, IsFileName name) :
    '\x00' ∉ (ofNames names).text.toList := by
  rw [text_ofNames, List.mem_cons, not_or]
  refine ⟨by decide, fun hzero => ?_⟩
  obtain hslash | ⟨cs, hcs, hzero⟩ := mem_intercalate hzero
  · exact absurd hslash (by decide)
  · obtain ⟨name, hname, rfl⟩ := List.mem_map.1 hcs
    exact (h name hname).noZero hzero

/-- A path is read back from its text if its names are names of files. -/
theorem ofText_text_ofNames {names : List String} (hne : names ≠ [])
    (h : ∀ name ∈ names, IsFileName name) : ofText (ofNames names).text = ofNames names := by
  rw [ofText, anchorOf_text_ofNames hne h, namesOf_text_ofNames hne h, ofNames]

/-- A link to an absolute path leads down its names. -/
theorem ofTarget_text_ofNames {names : List String} (hne : names ≠ [])
    (h : ∀ name ∈ names, IsFileName name) :
    Step.ofTarget (ofNames names).text = names.map Step.ofName := by
  have hcomponents := components_text_ofNames hne h
  have hplain : ∀ name ∈ names, decide (name ≠ "") = true := fun name hname =>
    decide_eq_true (h name hname).nonempty
  -- A slash at the end would leave the last name empty.
  have hlast : (ofNames names).text.toList.getLast? ≠ some '/' := by
    intro hslash
    obtain ⟨init, hinit⟩ := List.getLast?_eq_some_iff.1 hslash
    rw [hinit, components_append_slash] at hcomponents
    have hempty := congrArg List.getLast? hcomponents
    rw [List.getLast?_concat, List.getLast?_cons, List.getLast?_map,
      List.getLast?_eq_getLast_of_ne_nil hne] at hempty
    have hname := h _ (List.getLast_mem hne)
    exact hname.nonempty (String.toList_eq_nil_iff.1 (Option.some.inj hempty).symm)
  rw [Step.ofTarget, if_neg hlast, hcomponents, List.append_nil]
  simp only [List.map_cons, List.map_map, Function.comp_def, String.ofList_toList, List.map_id']
  rw [List.filter_cons_of_neg (by decide), List.filter_eq_self.2 hplain]
/-! ## Extensions -/

theorem name_mem {p : Path} (hne : p.names ≠ []) : p.name ∈ p.names := by
  rw [name, List.getLastD_eq_getLast?, List.getLast?_eq_getLast_of_ne_nil hne]
  exact List.getLast_mem hne

/-- The names that an extension has after its first slash. -/
def namesAfter (extension : String) : List String :=
  ((components extension.toList).tail.map String.ofList).filter fun name => name ≠ "" && name ≠ "."

/-- The extension makes a longer name of a name, and no further ones. -/
structure IsExtension (extension : String) : Prop where
  single : namesAfter extension = []
  closed : extension.toList.getLast? ≠ some '/'

/-- The names of an extended name are that name and those after the slash. -/
theorem length_namesOf_append {name extension : String} (hname : name ≠ "")
    (hslash : '/' ∉ name.toList) (hdot : extension.toList.head? = some '.') :
    (namesOf (name ++ extension)).length = (namesAfter extension).length + 1 := by
  obtain ⟨ds, hds⟩ := List.head?_eq_some_iff.1 hdot
  obtain ⟨first, rest, hrest⟩ := List.exists_cons_of_ne_nil (components_ne_nil ds)
  have hcomponents := components_cons (by decide : '.' ≠ '/') hrest
  have hlength : 0 < name.toList.length :=
    List.length_pos_iff.2 (mt String.toList_eq_nil_iff.1 hname)
  have hlonger : ∀ short : String, short.toList.length ≤ 1 →
      String.ofList (name.toList ++ '.' :: first) ≠ short := by
    rintro short hshort rfl
    simp only [String.toList_ofList, List.length_append, List.length_cons] at hshort
    omega
  have hplain : (String.ofList (name.toList ++ '.' :: first) ≠ "" &&
      String.ofList (name.toList ++ '.' :: first) ≠ ".") = true := by
    rw [Bool.and_eq_true, decide_eq_true_eq, decide_eq_true_eq]
    exact ⟨hlonger "" (by decide), hlonger "." (by decide)⟩
  rw [namesOf, namesAfter, String.toList_append, hds, components_append hslash hcomponents,
    hcomponents, List.map_cons, List.filter_cons, if_pos hplain, List.length_cons, List.tail_cons]

theorem isExtension_of_noSlash {extension : String} (h : '/' ∉ extension.toList) :
    IsExtension extension := by
  refine ⟨?_, fun hlast => h (List.mem_of_getLast? hlast)⟩
  rw [namesAfter, components_of_noSlash h]
  rfl

theorem name_ne_of_extendName {p q : Path} {extension : String}
    (h : extendName extension p = .ok q) : p.name ≠ "" := by
  intro hempty
  unfold extendName at h
  dsimp only at h
  rw [if_pos hempty] at h
  cases h

theorem isAbsolute_extendName {p q : Path} {extension : String}
    (h : extendName extension p = .ok q) (hp : p.isAbsolute = true) : q.isAbsolute = true := by
  unfold extendName at h
  dsimp only at h
  split at h
  · cases h
  · split at h
    · cases h
    · cases h
      exact hp

/-- Which paths can be extended depends on the extension alone. -/
theorem exists_extendName_iff {p : Path} {extension : String} (hname : p.name ≠ "")
    (hslash : '/' ∉ p.name.toList) (hdot : extension.toList.head? = some '.') :
    (∃ q, extendName extension p = .ok q) ↔ IsExtension extension := by
  have hne : extension.toList ≠ [] := by
    intro hnil
    rw [hnil] at hdot
    cases hdot
  have hlast : (p.name ++ extension).toList.getLast? = extension.toList.getLast? := by
    rw [String.toList_append, List.getLast?_append_of_ne_nil _ hne]
  unfold extendName
  dsimp only
  rw [if_neg hname, length_namesOf_append hname hslash hdot, hlast]
  constructor
  · rintro ⟨q, hq⟩
    split at hq
    · cases hq
    · next hvalid =>
      simp only [Bool.or_eq_true, decide_eq_true_eq, not_or, not_not] at hvalid
      exact ⟨List.length_eq_zero_iff.1 (Nat.succ.inj hvalid.1), hvalid.2⟩
  · intro h
    rw [if_neg]
    · exact ⟨_, rfl⟩
    · simp [h.single, h.closed]

end Path

theorem Machine.head?_sourceExtension (m : Machine) :
    m.sourceExtension.toList.head? = some '.' := by
  unfold sourceExtension
  dsimp only
  split
  · assumption
  · rw [String.toList_append]
    rfl

end SmallLisp
