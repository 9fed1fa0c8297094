import SmallLisp.Proofs.Bounds

/-! # Bounds on what is read

The forms of a source text hold integers in range and no functions at all, so that
they lie within all bounds. -/

namespace SmallLisp.Bounds

open Number Reading

variable {B : Bounds} {n : Nat}

theorem admitsForm_readBased {token : Token} {base : Nat} {isDigit : Char → Bool}
    {digits : List Char} {v : Value} (h : readBased token base isDigit digits = .ok v) :
    B.AdmitsForm n v := by
  unfold readBased at h
  split at h
  · cases h
  · split at h
    · cases h
    · next hle =>
      cases h
      have hrange : inRange (numeral base digits) = true := by
        unfold inRange leastInteger
        simp only [Bool.and_eq_true, decide_eq_true_eq]
        omega
      exact B.int_of_inRange hrange

theorem admitsForm_readOther {token : Token} {v : Value} (h : readOther token = .ok v) :
    B.AdmitsForm n v := by
  unfold readOther at h
  split at h
  · exact admitsForm_readBased h
  · exact admitsForm_readBased h
  · cases h
    exact admitsForm_symbol _

theorem admitsForm_readNumberOrSymbol {token : Token} {v : Value}
    (h : readNumberOrSymbol token = .ok v) : B.AdmitsForm n v := by
  unfold readNumberOrSymbol at h
  split at h
  · cases h
  · next k hk =>
    cases h
    exact B.int_of_inRange (inRange_of_integer? (readInteger_eq_ok_iff.1 hk).2)
  · split at h
    · cases h
      exact (admits_float _).1
    · exact admitsForm_readOther h

theorem admitsForm_readAtom {token : Token} {v : Value} (h : readAtom token = .ok v) :
    B.AdmitsForm n v := by
  unfold readAtom at h
  split at h
  · cases h
    exact admits_nil.1
  split at h
  · cases h
    exact (admits_bool _).1
  split at h
  · cases h
    exact (admits_bool _).1
  split at h
  · cases h
    exact (admits_string _).1
  · exact admitsForm_readNumberOrSymbol h

/-- All forms collected so far lie within the bounds. -/
def AdmitsLayers (B : Bounds) (n : Nat) (layers : Layers) : Prop :=
  (∀ v ∈ layers.inner, B.AdmitsForm n v) ∧ ∀ layer ∈ layers.outer, ∀ v ∈ layer, B.AdmitsForm n v

theorem AdmitsLayers.add {layers : Layers} {v : Value} (h : B.AdmitsLayers n layers)
    (hv : B.AdmitsForm n v) : B.AdmitsLayers n (layers.add v) :=
  ⟨List.forall_mem_cons.2 ⟨hv, h.1⟩, h.2⟩

theorem AdmitsLayers.openList {layers : Layers} (h : B.AdmitsLayers n layers) :
    B.AdmitsLayers n layers.openList :=
  ⟨fun _ hv => absurd hv List.not_mem_nil, List.forall_mem_cons.2 h⟩

theorem AdmitsLayers.closeList? {layers closed : Layers} (h : B.AdmitsLayers n layers)
    (hc : layers.closeList? = some closed) : B.AdmitsLayers n closed := by
  unfold Layers.closeList? at hc
  split at hc
  · cases hc
  · next around outer houter =>
    cases hc
    have h₂ := h.2
    rw [houter, List.forall_mem_cons] at h₂
    refine ⟨List.forall_mem_cons.2 ⟨?_, h₂.1⟩, h₂.2⟩
    exact admitsForm_list.2 fun v hv => h.1 v (List.mem_reverse.1 hv)

theorem AdmitsLayers.advance {index : Nat} {token : Token} {layers after : Layers}
    (h : B.AdmitsLayers n layers) (ha : advance index token layers = .ok after) :
    B.AdmitsLayers n after := by
  unfold Reading.advance at ha
  split at ha
  · cases ha
    exact h.openList
  split at ha
  · split at ha
    · next closed hclosed =>
      cases ha
      exact h.closeList? hclosed
    · cases ha
  · cases hatom : readAtom token with
    | error e =>
      rw [hatom] at ha
      cases ha
    | ok v =>
      rw [hatom] at ha
      cases ha
      exact h.add (admitsForm_readAtom hatom)

theorem AdmitsLayers.readFrom {tokens : List Token} {forms : List Value} :
    ∀ {index : Nat} {layers : Layers}, B.AdmitsLayers n layers →
      readFrom index layers tokens = .ok forms → ∀ v ∈ forms, B.AdmitsForm n v := by
  induction tokens with
  | nil =>
    intro index layers h hr
    unfold Reading.readFrom at hr
    split at hr
    · cases hr
      exact fun v hv => h.1 v (List.mem_reverse.1 hv)
    · cases hr
  | cons token rest ih =>
    intro index layers h hr
    unfold Reading.readFrom at hr
    split at hr
    · next after hafter => exact ih (h.advance hafter) hr
    · cases hr

/-- Whatever is read lies within all bounds. -/
theorem admitsForm_read {source : String} {forms : List Value} (h : read source = .ok forms) :
    ∀ form ∈ forms, B.AdmitsForm n form :=
  AdmitsLayers.readFrom
    ⟨fun _ hv => absurd hv List.not_mem_nil, fun _ hl => absurd hl List.not_mem_nil⟩ h

end SmallLisp.Bounds
