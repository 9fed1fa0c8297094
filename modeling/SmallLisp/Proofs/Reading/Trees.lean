import Mathlib
import SmallLisp.Reading.Forest

/-! # Trees of tokens

A forest is a sequence of trees: a word or a string is a tree, and so is a forest
between parentheses. A sequence of tokens is the flattening of at most one forest. -/

namespace SmallLisp.Reading

/-! ## Trees -/

def isParenthesis (token : Token) : Bool := token = ['('] || token = [')']

/-- A token that is a form of its own. -/
abbrev Leaf := { token : Token // isParenthesis token = false }

inductive Tree where
  | leaf (token : Leaf)
  | node (trees : List Tree)

namespace Tree

mutual

/-- The tokens of a tree. -/
def flatten : Tree → List Token
  | leaf token => [token.1]
  | node trees => ['('] :: (flattenAll trees ++ [[')']])

def flattenAll : List Tree → List Token
  | [] => []
  | t :: ts => flatten t ++ flattenAll ts

end

mutual

/-- The form that a tree denotes. -/
def value : Tree → Except Stop Value
  | leaf token => readAtom token.1
  | node trees => (valueAll trees).map .list

def valueAll : List Tree → Except Stop (List Value)
  | [] => .ok []
  | t :: ts => do
    let v ← value t
    let vs ← valueAll ts
    .ok (v :: vs)

end

theorem value_node {ts : List Tree} {vs : List Value} (h : valueAll ts = .ok vs) :
    (node ts).value = .ok (.list vs) := by
  rw [value, h]
  rfl

theorem valueAll_cons {t : Tree} {ts : List Tree} {v : Value} {vs : List Value}
    (h : t.value = .ok v) (hs : valueAll ts = .ok vs) : valueAll (t :: ts) = .ok (v :: vs) := by
  rw [valueAll, h, hs]
  rfl

theorem value_node_inv {ts : List Tree} {v : Value} (h : (node ts).value = .ok v) :
    ∃ vs, valueAll ts = .ok vs ∧ v = .list vs := by
  rw [value] at h
  cases hs : valueAll ts with
  | error e => rw [hs] at h; cases h
  | ok vs => rw [hs] at h; cases h; exact ⟨vs, rfl, rfl⟩

theorem valueAll_cons_inv {t : Tree} {ts : List Tree} {us : List Value}
    (h : valueAll (t :: ts) = .ok us) :
    ∃ v vs, t.value = .ok v ∧ valueAll ts = .ok vs ∧ us = v :: vs := by
  rw [valueAll] at h
  cases ht : t.value with
  | error e => rw [ht] at h; cases h
  | ok v =>
    rw [ht] at h
    cases hs : valueAll ts with
    | error e => rw [hs] at h; cases h
    | ok vs => rw [hs] at h; cases h; exact ⟨v, vs, rfl, rfl, rfl⟩

theorem valueAll_append {ts us : List Tree} {vs ws : List Value} (h : valueAll ts = .ok vs)
    (hu : valueAll us = .ok ws) : valueAll (ts ++ us) = .ok (vs ++ ws) := by
  induction ts generalizing vs with
  | nil => cases h; exact hu
  | cons t ts ih =>
    obtain ⟨v, vs, ht, hts, rfl⟩ := valueAll_cons_inv h
    exact valueAll_cons ht (ih hts)

@[simp] theorem flattenAll_append (ts us : List Tree) :
    flattenAll (ts ++ us) = flattenAll ts ++ flattenAll us := by
  induction ts with
  | nil => rfl
  | cons t ts ih => simp [flattenAll, ih]

@[simp] theorem flattenAll_singleton (t : Tree) : flattenAll [t] = t.flatten := by
  simp [flattenAll]

/-! ### One forest for a sequence of tokens -/

/-- The tokens after a forest: none, or the end of the list that it stands in. -/
def Ended (rest : List Token) : Prop := ∀ token ∈ rest.head?, token = [')']

theorem ended_nil : Ended [] := fun _ h => by cases h

theorem ended_close (rest : List Token) : Ended ([')'] :: rest) := fun _ h => by
  cases h
  rfl

theorem not_ended_flatten_append (t : Tree) (rest : List Token) :
    ¬ Ended (t.flatten ++ rest) := by
  intro h
  cases t with
  | leaf token =>
    have hclose := h token.1 rfl
    have hleaf := token.2
    rw [hclose] at hleaf
    cases hleaf
  | node ts =>
    have hclose := h ['('] rfl
    cases hclose

mutual

theorem flatten_append_inj : ∀ {t u : Tree} {r s : List Token},
    t.flatten ++ r = u.flatten ++ s → t = u ∧ r = s
  | .leaf a, .leaf b, r, s, h => by
    simp only [flatten, List.singleton_append, List.cons.injEq] at h
    exact ⟨congrArg leaf (Subtype.ext h.1), h.2⟩
  | .leaf a, .node us, r, s, h => by
    have hopen : a.1 = ['('] := (List.cons.inj h).1
    have hleaf := a.2
    rw [hopen] at hleaf
    cases hleaf
  | .node ts, .leaf b, r, s, h => by
    have hopen : ['('] = b.1 := (List.cons.inj h).1
    have hleaf := b.2
    rw [← hopen] at hleaf
    cases hleaf
  | .node ts, .node us, r, s, h => by
    simp only [flatten, List.cons_append, List.append_assoc, List.cons.injEq, true_and,
      List.nil_append] at h
    obtain ⟨rfl, hrest⟩ := flattenAll_append_inj (ended_close _) (ended_close _) h
    exact ⟨rfl, (List.cons.inj hrest).2⟩

theorem flattenAll_append_inj : ∀ {ts us : List Tree} {r s : List Token}, Ended r → Ended s →
    flattenAll ts ++ r = flattenAll us ++ s → ts = us ∧ r = s
  | [], [], _, _, _, _, h => ⟨rfl, h⟩
  | [], u :: us, r, s, hr, _, h => by
    rw [flattenAll, flattenAll, List.nil_append, List.append_assoc] at h
    exact absurd (h ▸ hr) (not_ended_flatten_append u _)
  | t :: ts, [], r, s, _, hs, h => by
    rw [flattenAll, flattenAll, List.nil_append, List.append_assoc] at h
    exact absurd (h ▸ hs) (not_ended_flatten_append t _)
  | t :: ts, u :: us, r, s, hr, hs, h => by
    rw [flattenAll, flattenAll, List.append_assoc, List.append_assoc] at h
    obtain ⟨rfl, htail⟩ := flatten_append_inj h
    obtain ⟨rfl, hrest⟩ := flattenAll_append_inj hr hs htail
    exact ⟨rfl, hrest⟩

end

theorem flattenAll_injective : Function.Injective flattenAll := by
  intro ts us h
  exact (flattenAll_append_inj ended_nil ended_nil
    (by rw [List.append_nil, List.append_nil]; exact h)).1

end Tree

end SmallLisp.Reading
