import IbtkJacobian.Lagrange
import IbtkJacobian.Kernels
import IbtkJacobian.Quad9

/- The calculators as the class hierarchy they are: `JacobianCalculator::get_JxW` is
   virtual, and a `Calculator` is an object of one of the derived classes. A call writes
   its result into the buffer `d_JxW` and returns it (`call`); a program makes a sequence
   of calls, and a failed assertion ends it (`run`).

   Each `get_JxW` first copies the weights over the whole buffer, so a call reads nothing
   an earlier call wrote (`getJxW_setJxW`), and it writes a vector of the weights' size
   (`getJxW_length`). Over any run, the state differs from the constructed one only in the
   buffer, and every call returns what it returns on the constructed calculator
   (`run_eq_fresh`).

   Every read of `get_JxW` and of the constructors is in range once the key's element type
   has the nodes the calculator reads (`getJxW_in_range`); the specialised calculators do
   not check that, and a `Quad9JacobianCalculator` built for a `QUAD4` key reads past the
   element's nodes (`quad9_quad4_key_reads_past_nodes`). -/

namespace IBTK

variable {R : Type}

/-- An object of one of the classes derived from `JacobianCalculator`. -/
inductive Calculator (R : Type) where
  | lagrange (dim spacedim : Nat) (c : LagrangeJacobianCalculator R dim spacedim)
  | tri3 (c : Tri3JacobianCalculator R)
  | quad4 (c : Quad4JacobianCalculator R)
  | quad9 (c : Quad9JacobianCalculator R)
  | tet4 (c : Tet4JacobianCalculator R)

namespace Calculator

/-- The base-class part of the object. -/
def base : Calculator R → JacobianCalculator R
  | lagrange _ _ c => c.toJacobianCalculator
  | tri3 c => c.toJacobianCalculator
  | quad4 c => c.toJacobianCalculator
  | quad9 c => c.toJacobianCalculator
  | tet4 c => c.toJacobianCalculator

/-- The object with `d_JxW` holding `v`. -/
def setJxW (v : List R) : Calculator R → Calculator R
  | lagrange d s c => lagrange d s { c with JxW := v }
  | tri3 c => tri3 { c with JxW := v }
  | quad4 c => quad4 { c with JxW := v }
  | quad9 c => quad9 { c with JxW := v }
  | tet4 c => tet4 { c with JxW := v }

@[simp] theorem base_setJxW (v : List R) (c : Calculator R) :
    (c.setJxW v).base = { c.base with JxW := v } := by
  cases c <;> rfl

theorem setJxW_setJxW (v w : List R) (c : Calculator R) :
    (c.setJxW v).setJxW w = c.setJxW w := by
  cases c <;> rfl

theorem setJxW_self (c : Calculator R) : c.setJxW c.base.JxW = c := by
  cases c <;> rfl

/-- The state the constructors leave. -/
def WF : Calculator R → Prop
  | lagrange _ _ c => c.WF
  | tri3 c => c.WF
  | quad4 c => c.WF
  | quad9 c => c.WF
  | tet4 c => c.WF

/-- The key's element type has every node the calculator reads, and the generic path is
one of the instantiated templates. -/
def Admissible : Calculator R → Prop
  | lagrange d s _ => (d, s) ∈ instantiations
  | tri3 c => 3 ≤ getNNodes c.quadKey.elemType
  | quad4 c => 4 ≤ getNNodes c.quadKey.elemType
  | quad9 c => 9 ≤ getNNodes c.quadKey.elemType
  | tet4 c => 4 ≤ getNNodes c.quadKey.elemType

theorem WF.base : ∀ {c : Calculator R}, c.WF → c.base.WF
  | lagrange .., hc => hc.toWF
  | tri3 _, hc => hc
  | quad4 _, hc => hc
  | quad9 _, hc => hc.toWF
  | tet4 _, hc => hc

theorem setJxW_wf : ∀ {c : Calculator R}, c.WF → ∀ {v : List R},
    v.length = c.base.quadWeights.length → (c.setJxW v).WF
  | lagrange .., hc, _, hv => { hc with length_JxW := hv }
  | tri3 _, hc, _, hv => { hc with length_JxW := hv }
  | quad4 _, hc, _, hv => { hc with length_JxW := hv }
  | quad9 _, hc, _, hv => { hc with length_JxW := hv }
  | tet4 _, hc, _, hv => { hc with length_JxW := hv }

variable [LinearOrderedField R]

/-- The virtual call `get_JxW(elem)`; `sqrt` is `std::sqrt`. -/
def getJxW (sqrt : R → R) : Calculator R → Elem R → Except JacobianError (List R)
  | lagrange _ _ c, elem => c.getJxW sqrt elem
  | tri3 c, elem => c.getJxW elem
  | quad4 c, elem => c.getJxW elem
  | quad9 c, elem => c.getJxW elem
  | tet4 c, elem => c.getJxW elem

/-- `const std::vector<double>& JxW = calc.get_JxW(elem)`: the call fills the buffer and
returns it. -/
def call (sqrt : R → R) (c : Calculator R) (elem : Elem R) :
    Except JacobianError (Calculator R × List R) := do
  let JxW ← c.getJxW sqrt elem
  .ok (c.setJxW JxW, JxW)

/-- Calls on `es` in turn; a failed assertion ends the run. -/
def run (sqrt : R → R) : Calculator R → List (Elem R) →
    Except JacobianError (Calculator R × List (List R))
  | c, [] => .ok (c, [])
  | c, e :: es => do
    let (c', v) ← c.call sqrt e
    let (c'', vs) ← c'.run sqrt es
    .ok (c'', v :: vs)

end Calculator

/-! The buffer, call by call: each calculator's `get_JxW` is the prologue followed by a body
that never reads the buffer, and each body keeps the length of the weights it receives. -/

section Buffer

variable [LinearOrderedField R] {sqrt : R → R} {elem : Elem R} {v : List R}

theorem LagrangeJacobianCalculator.getJxW_setJxW {dim spacedim : Nat}
    {c : LagrangeJacobianCalculator R dim spacedim} (hc : c.toJacobianCalculator.WF)
    (hv : v.length = c.quadWeights.length) :
    ({ c with JxW := v } : LagrangeJacobianCalculator R dim spacedim).getJxW sqrt elem =
      c.getJxW sqrt elem :=
  JacobianCalculator.initJxW_bind_setJxW hc hv elem _

theorem Tri3JacobianCalculator.getJxW_setJxW {c : Tri3JacobianCalculator R}
    (hc : c.toJacobianCalculator.WF) (hv : v.length = c.quadWeights.length) :
    ({ c with JxW := v } : Tri3JacobianCalculator R).getJxW elem = c.getJxW elem :=
  JacobianCalculator.initJxW_bind_setJxW hc hv elem _

theorem Quad4JacobianCalculator.getJxW_setJxW {c : Quad4JacobianCalculator R}
    (hc : c.toJacobianCalculator.WF) (hv : v.length = c.quadWeights.length) :
    ({ c with JxW := v } : Quad4JacobianCalculator R).getJxW elem = c.getJxW elem :=
  JacobianCalculator.initJxW_bind_setJxW hc hv elem _

theorem Quad9JacobianCalculator.getJxW_setJxW {c : Quad9JacobianCalculator R}
    (hc : c.toJacobianCalculator.WF) (hv : v.length = c.quadWeights.length) :
    ({ c with JxW := v } : Quad9JacobianCalculator R).getJxW elem = c.getJxW elem :=
  JacobianCalculator.initJxW_bind_setJxW hc hv elem _

theorem Tet4JacobianCalculator.getJxW_setJxW {c : Tet4JacobianCalculator R}
    (hc : c.toJacobianCalculator.WF) (hv : v.length = c.quadWeights.length) :
    ({ c with JxW := v } : Tet4JacobianCalculator R).getJxW elem = c.getJxW elem :=
  JacobianCalculator.initJxW_bind_setJxW hc hv elem _

theorem LagrangeJacobianCalculator.getJxW_length {dim spacedim : Nat}
    {c : LagrangeJacobianCalculator R dim spacedim} (hc : c.toJacobianCalculator.WF)
    (h : c.getJxW sqrt elem = .ok v) : v.length = c.quadWeights.length :=
  JacobianCalculator.length_of_initJxW_bind hc (fun _ _ h => by
    obtain ⟨_, -, h⟩ := bind_eq_ok.mp h
    exact scaleJxW_length h) h

theorem Tri3JacobianCalculator.getJxW_length {c : Tri3JacobianCalculator R}
    (hc : c.toJacobianCalculator.WF) (h : c.getJxW elem = .ok v) :
    v.length = c.quadWeights.length :=
  JacobianCalculator.length_of_initJxW_bind hc (fun _ _ h => by
    repeat obtain ⟨_, -, h⟩ := bind_eq_ok.mp h
    dsimp only at h
    split_ifs at h
    cases h
    exact List.length_map _ _) h

theorem Quad4JacobianCalculator.getJxW_length {c : Quad4JacobianCalculator R}
    (hc : c.toJacobianCalculator.WF) (h : c.getJxW elem = .ok v) :
    v.length = c.quadWeights.length :=
  JacobianCalculator.length_of_initJxW_bind hc (fun _ _ h => by
    repeat obtain ⟨_, -, h⟩ := bind_eq_ok.mp h
    exact scaleJxW_length h) h

theorem Quad9JacobianCalculator.getJxW_length {c : Quad9JacobianCalculator R}
    (hc : c.toJacobianCalculator.WF) (h : c.getJxW elem = .ok v) :
    v.length = c.quadWeights.length :=
  JacobianCalculator.length_of_initJxW_bind hc (fun _ _ h => by
    repeat obtain ⟨_, -, h⟩ := bind_eq_ok.mp h
    exact scaleJxW_length h) h

theorem Tet4JacobianCalculator.getJxW_length {c : Tet4JacobianCalculator R}
    (hc : c.toJacobianCalculator.WF) (h : c.getJxW elem = .ok v) :
    v.length = c.quadWeights.length :=
  JacobianCalculator.length_of_initJxW_bind hc (fun _ _ h => by
    repeat obtain ⟨_, -, h⟩ := bind_eq_ok.mp h
    dsimp only at h
    split_ifs at h
    cases h
    exact List.length_map _ _) h

end Buffer

namespace Calculator

variable [LinearOrderedField R] {sqrt : R → R}

/-- **A call reads nothing of the buffer.** -/
theorem getJxW_setJxW : ∀ {c : Calculator R}, c.WF → ∀ {v : List R},
    v.length = c.base.quadWeights.length →
      ∀ elem, (c.setJxW v).getJxW sqrt elem = c.getJxW sqrt elem
  | lagrange .., hc, _, hv, _ => LagrangeJacobianCalculator.getJxW_setJxW hc.toWF hv
  | tri3 _, hc, _, hv, _ => Tri3JacobianCalculator.getJxW_setJxW hc hv
  | quad4 _, hc, _, hv, _ => Quad4JacobianCalculator.getJxW_setJxW hc hv
  | quad9 _, hc, _, hv, _ => Quad9JacobianCalculator.getJxW_setJxW hc.toWF hv
  | tet4 _, hc, _, hv, _ => Tet4JacobianCalculator.getJxW_setJxW hc hv

theorem getJxW_length : ∀ {c : Calculator R}, c.WF → ∀ {elem : Elem R} {v : List R},
    c.getJxW sqrt elem = .ok v → v.length = c.base.quadWeights.length
  | lagrange .., hc, _, _, h => LagrangeJacobianCalculator.getJxW_length hc.toWF h
  | tri3 _, hc, _, _, h => Tri3JacobianCalculator.getJxW_length hc h
  | quad4 _, hc, _, _, h => Quad4JacobianCalculator.getJxW_length hc h
  | quad9 _, hc, _, _, h => Quad9JacobianCalculator.getJxW_length hc.toWF h
  | tet4 _, hc, _, _, h => Tet4JacobianCalculator.getJxW_length hc h

/-- A `QUAD4` calculator under the one-point Gauss rule on the square of side `s`: `J` is
`s²/4` and `JxW = [s²]`. -/
theorem quad4_one_point_square {s : ℚ} (hs : 0 < s) :
    (quad4 (Quad4JacobianCalculator.new ⟨.QUAD4, .QGAUSS, 1⟩ (⟨[0], [4], rfl⟩ : QRule ℚ))).getJxW id
      ⟨.QUAD4, [![0, 0, 0], ![s, 0, 0], ![s, s, 0], ![0, s, 0]], rfl⟩ = .ok [s * s] := by
  show Quad4JacobianCalculator.getJxW _ _ = _
  rw [Quad4JacobianCalculator.getJxW_eq (Quad4JacobianCalculator.new_wf _ _) rfl
    (by exact le_rfl)]
  norm_num [scaleJxW, Quad4Coefficients.of, Quad4Coefficients.jacobian, Elem.node,
    Quad4JacobianCalculator.new, JacobianCalculator.new, hs]
  ring

/-- One call, from a constructed state: the returned vector, and the state with it in the
buffer. -/
theorem run_cons (c : Calculator R) (e : Elem R) (es : List (Elem R)) {v : List R}
    (h : c.getJxW sqrt e = .ok v) :
    c.run sqrt (e :: es) = (c.setJxW v).run sqrt es >>= fun r => .ok (r.1, v :: r.2) := by
  simp only [run, call, h, ok_bind]

theorem run_cons_error (c : Calculator R) (e : Elem R) (es : List (Elem R)) {err : JacobianError}
    (h : c.getJxW sqrt e = .error err) : c.run sqrt (e :: es) = .error err := by
  simp only [run, call, h, error_bind]

/-- **Calls leave no trace.** From a calculator in its constructed state, a run of calls
on any elements changes only the buffer `d_JxW`, keeps it the size of the weights, and
returns, call by call, what each call returns on the constructed calculator. -/
theorem run_eq_fresh (sqrt : R → R) {c : Calculator R} (hc : c.WF) (es : List (Elem R)) :
    (Prod.snd <$> c.run sqrt es) = es.mapM (c.getJxW sqrt) ∧
    ∀ c' vs, c.run sqrt es = .ok (c', vs) →
      c' = c.setJxW c'.base.JxW ∧ c'.base.JxW.length = c.base.quadWeights.length := by
  induction es generalizing c with
  | nil =>
    refine ⟨rfl, fun c' vs h => ?_⟩
    cases h
    exact ⟨(setJxW_self c).symm, hc.base.length_JxW⟩
  | cons e es ih =>
    cases h1 : c.getJxW sqrt e with
    | error err =>
      rw [run_cons_error c e es h1, List.mapM_cons, h1]
      exact ⟨rfl, fun c' vs h => by cases h⟩
    | ok v =>
      have hv := getJxW_length hc h1
      obtain ⟨ih1, ih2⟩ := ih (setJxW_wf hc hv)
      rw [funext (getJxW_setJxW hc hv)] at ih1
      refine ⟨?_, fun c' vs h => ?_⟩
      · rw [run_cons c e es h1, List.mapM_cons, h1, ok_bind, ← ih1]
        cases (c.setJxW v).run sqrt es <;> rfl
      · rw [run_cons c e es h1] at h
        obtain ⟨⟨c2, vs2⟩, h2, h⟩ := bind_eq_ok.mp h
        cases h
        obtain ⟨hc2, hl⟩ := ih2 _ _ h2
        exact ⟨hc2.trans (setJxW_setJxW _ _ _), by rw [hl, base_setJxW]⟩

end Calculator

/-! Reads in range. -/

section Range

variable [LinearOrderedField R] {sqrt : R → R} {elem : Elem R}

theorem jacobianOf_ok (sqrt : R → R) {dim spacedim : Nat}
    (hi : (dim, spacedim) ∈ instantiations) (F : Fin spacedim → Fin dim → R) :
    ∃ J, jacobianOf sqrt F = .ok J := by
  obtain ⟨h1, h2, h3⟩ := mem_instantiations hi
  unfold jacobianOf
  split_ifs with hds
  · subst hds
    exact ⟨_, determinant_eq_det F h1 h3⟩
  · exact ⟨_, by rw [determinant_eq_det (gram F) h1 (by omega)]; rfl⟩

theorem LagrangeJacobianCalculator.getJxW_ne_outOfRange {dim spacedim : Nat}
    {c : LagrangeJacobianCalculator R dim spacedim} (hc : c.WF)
    (hi : (dim, spacedim) ∈ instantiations) (he : elem.type = c.quadKey.elemType) :
    c.getJxW sqrt elem ≠ .error .outOfRange := by
  rw [getJxW_eq_scaleJxW sqrt hc (mem_instantiations hi).2.2 he]
  intro h
  rcases scaleJxW_eq_error h with h' | ⟨k, -, hk⟩
  · cases h'
  · obtain ⟨J, hJ⟩ := jacobianOf_ok sqrt hi (c.contravariant elem (0 + k))
    rw [hJ] at hk
    cases hk

theorem Tri3JacobianCalculator.getJxW_ne_outOfRange {c : Tri3JacobianCalculator R} (hc : c.WF)
    (hn : 3 ≤ getNNodes c.quadKey.elemType) (he : elem.type = c.quadKey.elemType) :
    c.getJxW elem ≠ .error .outOfRange := by
  rw [getJxW_eq hc he (by rw [he]; exact hn)]
  dsimp only
  split_ifs <;> simp

theorem Tet4JacobianCalculator.getJxW_ne_outOfRange {c : Tet4JacobianCalculator R} (hc : c.WF)
    (hn : 4 ≤ getNNodes c.quadKey.elemType) (he : elem.type = c.quadKey.elemType) :
    c.getJxW elem ≠ .error .outOfRange := by
  rw [getJxW_eq hc he (by rw [he]; exact hn)]
  dsimp only
  split_ifs <;> simp

theorem Quad4JacobianCalculator.getJxW_ne_outOfRange {c : Quad4JacobianCalculator R} (hc : c.WF)
    (hn : 4 ≤ getNNodes c.quadKey.elemType) (he : elem.type = c.quadKey.elemType) :
    c.getJxW elem ≠ .error .outOfRange := by
  rw [getJxW_eq hc he (by rw [he]; exact hn)]
  intro h
  rcases scaleJxW_eq_error h with h' | ⟨k, -, hk⟩
  · cases h'
  · cases hk

theorem Quad9JacobianCalculator.getJxW_ne_outOfRange {c : Quad9JacobianCalculator R} (hc : c.WF)
    (hn : 9 ≤ getNNodes c.quadKey.elemType) (he : elem.type = c.quadKey.elemType) :
    c.getJxW elem ≠ .error .outOfRange := by
  rw [getJxW_eq hc he (by rw [he]; exact hn)]
  intro h
  rcases scaleJxW_eq_error h with h' | ⟨k, -, hk⟩
  · cases h'
  · cases hk

/-- **Every read is in range.** The constructors never read out of range; and on an
element of the key's type, `get_JxW` of a calculator in its constructed state reads out of
range only if the key's element type lacks a node the calculator reads. -/
theorem getJxW_in_range (sqrt : R → R) :
    (∀ {dim spacedim : Nat} (quadKey : KeyType) (rule : QRule R)
      (shapeDeriv : Fin (getNNodes quadKey.elemType) → Fin dim → Point R → R),
      (LagrangeJacobianCalculator.new quadKey rule shapeDeriv :
        Except JacobianError (LagrangeJacobianCalculator R dim spacedim)) ≠ .error .outOfRange) ∧
    (∀ (quadKey : KeyType) (rule : QRule R),
      Quad9JacobianCalculator.new quadKey rule ≠ .error .outOfRange) ∧
    ∀ (c : Calculator R) (elem : Elem R), c.WF → c.Admissible →
      elem.type = c.base.quadKey.elemType → c.getJxW sqrt elem ≠ .error .outOfRange := by
  refine ⟨fun quadKey rule sd => ?_, fun quadKey rule h => ?_, fun c elem hc hk he => ?_⟩
  · unfold LagrangeJacobianCalculator.new
    split_ifs <;> simp
  · rcases Quad9JacobianCalculator.new_eq_error h with h' | h' <;> cases h'
  · cases c with
    | lagrange d s c => exact LagrangeJacobianCalculator.getJxW_ne_outOfRange hc hk he
    | tri3 c => exact Tri3JacobianCalculator.getJxW_ne_outOfRange hc hk he
    | quad4 c => exact Quad4JacobianCalculator.getJxW_ne_outOfRange hc hk he
    | quad9 c => exact Quad9JacobianCalculator.getJxW_ne_outOfRange hc hk he
    | tet4 c => exact Tet4JacobianCalculator.getJxW_ne_outOfRange hc hk he

theorem quad9_getJxW_in_range :
    ∃ c9 : Quad9JacobianCalculator ℚ,
      Quad9JacobianCalculator.new ⟨.QUAD9, .QGAUSS, 1⟩ ⟨[0], [4], rfl⟩ = .ok c9 ∧
      (Calculator.quad9 c9).getJxW id quad9RefElem ≠ .error .outOfRange ∧
      (Calculator.quad9 c9).getJxW id quad9RefElem = .ok [4] := by
  obtain ⟨c9, h9⟩ := Quad9JacobianCalculator.new_one_point (R := ℚ) ⟨.QUAD9, .QGAUSS, 1⟩
  have hk : c9.quadKey = ⟨.QUAD9, .QGAUSS, 1⟩ := by
    obtain ⟨-, -, rfl⟩ := Quad9JacobianCalculator.new_eq_ok.mp h9; rfl
  exact ⟨c9, h9, (getJxW_in_range id).2.2 (.quad9 c9) _ (Quad9JacobianCalculator.new_wf h9)
    (show 9 ≤ getNNodes c9.quadKey.elemType by rw [hk]; decide)
    (show _ = c9.quadKey.elemType by rw [hk]; rfl),
    Quad9JacobianCalculator.getJxW_quad9RefElem h9⟩

/-- A `Quad9JacobianCalculator` built for a `QUAD4` key passes its constructor's checks, and
on a `QUAD4` element its `get_JxW` reads node 4 of four. -/
theorem quad9_quad4_key_reads_past_nodes :
    ∃ c9 : Quad9JacobianCalculator ℚ,
      Quad9JacobianCalculator.new ⟨.QUAD4, .QGAUSS, 1⟩ ⟨[0], [4], rfl⟩ = .ok c9 ∧
      c9.quadKey.elemType = .QUAD4 ∧
      (Calculator.quad9 c9).getJxW id ⟨.QUAD4, List.replicate 4 0, rfl⟩ = .error .outOfRange := by
  obtain ⟨c9, h9⟩ := Quad9JacobianCalculator.new_one_point (R := ℚ) ⟨.QUAD4, .QGAUSS, 1⟩
  have hk : c9.quadKey = ⟨.QUAD4, .QGAUSS, 1⟩ := by
    obtain ⟨-, -, rfl⟩ := Quad9JacobianCalculator.new_eq_ok.mp h9; rfl
  refine ⟨c9, h9, by rw [hk], ?_⟩
  show c9.getJxW _ = _
  rw [Quad9JacobianCalculator.getJxW,
    JacobianCalculator.initJxW_of_length (Quad9JacobianCalculator.new_wf h9).length_JxW,
    if_pos (by rw [hk]), ok_bind, Elem.point_eq_node _ (by decide), ok_bind, Elem.point,
    getChecked_of_le (by simp), error_bind]

/-- Two calls on a `QUAD4` calculator, the unit square and then the square of side 2, return
`JxW = [1]` and `[4]`, as the constructed calculator does. -/
theorem quad4_run_twice :
    let c := Calculator.quad4
      (Quad4JacobianCalculator.new ⟨.QUAD4, .QGAUSS, 1⟩ (⟨[0], [4], rfl⟩ : QRule ℚ))
    let e1 : Elem ℚ := ⟨.QUAD4, [![0, 0, 0], ![1, 0, 0], ![1, 1, 0], ![0, 1, 0]], rfl⟩
    let e2 : Elem ℚ := ⟨.QUAD4, [![0, 0, 0], ![2, 0, 0], ![2, 2, 0], ![0, 2, 0]], rfl⟩
    (Prod.snd <$> c.run id [e1, e2]) = .ok [[1], [4]] ∧
      ∀ c' vs, c.run id [e1, e2] = .ok (c', vs) →
        c' = c.setJxW c'.base.JxW ∧ c'.base.JxW.length = c.base.quadWeights.length := by
  intro c e1 e2
  obtain ⟨h, hs⟩ := Calculator.run_eq_fresh id (c := c) (Quad4JacobianCalculator.new_wf _ _) [e1, e2]
  have h1 : c.getJxW id e1 = .ok [1] :=
    (Calculator.quad4_one_point_square one_pos).trans (by norm_num)
  have h2 : c.getJxW id e2 = .ok [4] :=
    (Calculator.quad4_one_point_square two_pos).trans (by norm_num)
  refine ⟨h.trans ?_, hs⟩
  simp only [List.mapM_cons, List.mapM_nil, h1, h2, ok_bind]
  rfl

end Range

end IBTK
