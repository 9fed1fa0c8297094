import SmallLisp.Loading
import Mathlib.Data.List.Perm.Subperm
import Mathlib.Logic.Relation

/-! # The import graph

A file imports the files that its import forms name, as seen from its own place. Paths
through this graph that visit no file twice are no longer than there are files, and a
file from which no cycle is reachable imports only such files. -/

namespace SmallLisp

open Relation

/-! ## The files of a tree -/

namespace Node

mutual

/-- The places of the files in a tree. -/
def filePlaces : Node → List Place
  | file _ => [[]]
  | link _ => []
  | directory entries => filePlacesIn entries

def filePlacesIn : List (String × Node) → List Place
  | [] => []
  | (name, n) :: entries => n.filePlaces.map (name :: ·) ++ filePlacesIn entries

end

theorem mem_filePlacesIn {name : String} {n : Node} {place : Place} (h : place ∈ n.filePlaces) :
    ∀ {entries : List (String × Node)}, entries.lookup name = some n →
      name :: place ∈ filePlacesIn entries := by
  intro entries hlookup
  induction entries with
  | nil => cases hlookup
  | cons entry entries ih =>
    obtain ⟨first, child⟩ := entry
    rw [filePlacesIn, List.mem_append]
    rw [List.lookup_cons] at hlookup
    split at hlookup
    · next heq =>
      cases hlookup
      rw [beq_iff_eq] at heq
      subst heq
      exact Or.inl (List.mem_map_of_mem h)
    · exact Or.inr (ih hlookup)

/-- A place of a file is among the places of files. -/
theorem mem_filePlaces {bytes : List UInt8} :
    ∀ {place : Place} {n : Node}, n.at? place = some (file bytes) → place ∈ n.filePlaces
  | [], n, h => by
    cases h
    exact List.mem_singleton_self _
  | name :: place, n, h => by
    obtain ⟨child, hchild, hat⟩ := Option.bind_eq_some_iff.1 h
    cases n with
    | directory entries => exact mem_filePlacesIn (mem_filePlaces hat) hchild
    | file _ => cases hchild
    | link _ => cases hchild

end Node

theorem FileSystem.mem_filePlaces {fs : FileSystem} {place : Place} {source : List Char}
    (h : fs.readText place = .ok source) : place ∈ fs.tree.filePlaces := by
  unfold readText at h
  dsimp only at h
  split at h
  · cases h
  · split at h
    · next hnode => exact Node.mem_filePlaces hnode
    · cases h
    · cases h

/-! ## Imports -/

/-- A form that stands for itself: an atom, but no symbol. -/
def Value.isConstant : Value → Bool
  | nil | bool _ | int _ | float _ | string _ => true
  | _ => false

/-- The form that imports the file which the text names. -/
def importForm (text : String) : Value := .list [.symbol "import", .string text]

section

variable (m : Machine)

/-- The forms of the file at a place. -/
def HasForms (p : Place) (forms : List Value) : Prop :=
  ∃ source, m.files.readText p = .ok source ∧ Reading.read (String.ofList source) = .ok forms

/-- The file at `q` is what the text names in the file at `p`. -/
def Names (p : Place) (text : String) (q : Place) : Prop :=
  importPlace m (some (.ofNames p)) text = .ok q

/-- The file at `p` imports the one at `q`. -/
def Imports (p q : Place) : Prop :=
  ∃ forms text, HasForms m p forms ∧ importForm text ∈ forms ∧ Names m p text q

/-- The file at `p` consists of constants and of imports, and these name files. -/
def OnlyImports (p : Place) : Prop :=
  ∃ forms, HasForms m p forms ∧
    ∀ form ∈ forms, form.isConstant = true ∨ ∃ text q, form = importForm text ∧ Names m p text q

/-- No cycle of imports is reachable. -/
def Acyclic (p : Place) : Prop :=
  ∀ q, ReflTransGen (Imports m) p q → ¬ TransGen (Imports m) q q

/-- No cycle is reachable from what is imported by forms in the file at `p`. -/
def AcyclicImports (p : Place) (forms : List Value) : Prop :=
  ∀ text q, importForm text ∈ forms → Names m p text q → Acyclic m q

end

variable {m : Machine} {p q : Place}

theorem HasForms.unique {forms forms' : List Value} (h : HasForms m p forms)
    (h' : HasForms m p forms') : forms = forms' := by
  obtain ⟨source, hsource, hread⟩ := h
  obtain ⟨source', hsource', hread'⟩ := h'
  rw [hsource] at hsource'
  cases hsource'
  rw [hread] at hread'
  cases hread'
  rfl

theorem HasForms.mem_filePlaces {forms : List Value} (h : HasForms m p forms) :
    p ∈ m.files.tree.filePlaces := by
  obtain ⟨source, hsource, -⟩ := h
  exact FileSystem.mem_filePlaces hsource

theorem Imports.mem_filePlaces (h : Imports m p q) : p ∈ m.files.tree.filePlaces := by
  obtain ⟨forms, text, hforms, -⟩ := h
  exact hforms.mem_filePlaces

theorem importForm_injective : Function.Injective importForm := by
  intro text text' h
  cases h
  rfl

/-- A cycle through `p` itself goes through a file that it imports. -/
theorem acyclic_iff : Acyclic m p ↔ ∀ q, Imports m p q → Acyclic m q := by
  constructor
  · intro h q hq r hr
    exact h r (.head hq hr)
  · intro h q hq hcycle
    obtain rfl | ⟨r, hpr, hrq⟩ := hq.cases_head
    · obtain ⟨r, hpr, hrp⟩ := TransGen.head'_iff.1 hcycle
      exact h r hpr p hrp hcycle
    · exact h r hpr q hrq hcycle

theorem HasForms.acyclic_iff {forms : List Value} (h : HasForms m p forms) :
    Acyclic m p ↔ AcyclicImports m p forms := by
  rw [SmallLisp.acyclic_iff]
  constructor
  · intro hacyclic text q hmem hnames
    exact hacyclic q ⟨forms, text, h, hmem, hnames⟩
  · rintro hall q ⟨forms', text, hforms', hmem, hnames⟩
    rw [hforms'.unique h] at hmem
    exact hall text q hmem hnames

theorem acyclicImports_nil : AcyclicImports m p [] :=
  fun _ _ h => absurd h List.not_mem_nil

theorem acyclicImports_cons_constant {form : Value} {forms : List Value}
    (h : form.isConstant = true) :
    AcyclicImports m p (form :: forms) ↔ AcyclicImports m p forms := by
  have hne : ∀ text, importForm text ≠ form := by
    rintro text rfl
    cases h
  simp only [AcyclicImports, List.mem_cons, hne, false_or]

theorem acyclicImports_cons_importForm {text : String} {forms : List Value}
    (h : Names m p text q) :
    AcyclicImports m p (importForm text :: forms) ↔ Acyclic m q ∧ AcyclicImports m p forms := by
  constructor
  · intro hall
    exact ⟨hall text q List.mem_cons_self h,
      fun text q hmem => hall text q (List.mem_cons_of_mem _ hmem)⟩
  · rintro ⟨hq, hforms⟩ text' q' hmem hnames
    rcases List.mem_cons.1 hmem with heq | hmem
    · obtain rfl := importForm_injective heq
      rw [Names, h] at hnames
      cases hnames
      exact hq
    · exact hforms text' q' hmem hnames

/-- Imports lead out of no set of places whose files name only files in it. -/
theorem onlyImports_of_closed {places : List Place}
    (hclosed : ∀ p ∈ places, ∃ forms, HasForms m p forms ∧ ∀ form ∈ forms,
      form.isConstant = true ∨ ∃ text, ∃ q ∈ places, form = importForm text ∧ Names m p text q)
    (hp : p ∈ places) : ∀ q, ReflTransGen (Imports m) p q → OnlyImports m q := by
  have hreached : ∀ q, ReflTransGen (Imports m) p q → q ∈ places := by
    intro q hq
    induction hq with
    | refl => exact hp
    | @tail r s _ hrs ih =>
      obtain ⟨forms, hforms, hall⟩ := hclosed r ih
      obtain ⟨forms', text, hforms', hmem, hnames⟩ := hrs
      rw [hforms'.unique hforms] at hmem
      obtain hconstant | ⟨text', s', hs', heq, hnames'⟩ := hall _ hmem
      · cases hconstant
      · obtain rfl := importForm_injective heq
        rw [Names, hnames'] at hnames
        cases hnames
        exact hs'
  intro q hq
  obtain ⟨forms, hforms, hall⟩ := hclosed q (hreached q hq)
  refine ⟨forms, hforms, fun form hform => (hall form hform).imp_right ?_⟩
  rintro ⟨text, r, -, heq, hnames⟩
  exact ⟨text, r, heq, hnames⟩

/-! ## Trails -/

/-- Different files, each of which leads to `p`. -/
structure Trail (m : Machine) (trail : List Place) (p : Place) : Prop where
  nodup : trail.Nodup
  leads : ∀ q ∈ trail, TransGen (Imports m) q p

namespace Trail

variable {trail : List Place}

theorem nil : Trail m [] p := ⟨List.nodup_nil, fun _ h => absurd h List.not_mem_nil⟩

/-- A trail goes on over a file that is not on it yet. -/
theorem cons (h : Trail m trail p) (hp : p ∉ trail) (himports : Imports m p q) :
    Trail m (p :: trail) q := by
  refine ⟨List.nodup_cons.2 ⟨hp, h.nodup⟩, ?_⟩
  rw [List.forall_mem_cons]
  exact ⟨.single himports, fun r hr => (h.leads r hr).tail himports⟩

/-- To be on the trail is to be on a cycle. -/
theorem not_acyclic (h : Trail m trail p) (hp : p ∈ trail) : ¬ Acyclic m p :=
  fun hacyclic => hacyclic p .refl (h.leads p hp)

/-- A trail over all files leads only to files that are on it. -/
theorem mem_of_length_le (h : Trail m trail p) (hp : p ∈ m.files.tree.filePlaces)
    (hlength : m.files.tree.filePlaces.length ≤ trail.length) : p ∈ trail := by
  by_contra hnew
  have hsub : p :: trail ⊆ m.files.tree.filePlaces := by
    refine List.cons_subset.2 ⟨hp, fun q hq => ?_⟩
    obtain ⟨r, hqr, -⟩ := TransGen.head'_iff.1 (h.leads q hq)
    exact hqr.mem_filePlaces
  have hlonger := ((List.nodup_cons.2 ⟨hnew, h.nodup⟩).subperm hsub).length_le
  rw [List.length_cons] at hlonger
  omega

end Trail

end SmallLisp
