import IbtkJacobian.Basic

/- The base class `JacobianCalculator` and the two pieces every `get_JxW` shares: the
   prologue that checks the element's type and copies the reference weights into the
   `d_JxW` buffer (`initJxW`), and the loop that asserts `J > 0` at each quadrature point
   and multiplies it in (`scaleJxW`). Each gets its spec lemma here, so that the
   calculators' proofs never unfold them:

     `initJxW_of_length`  the prologue returns the weights when the buffer has their size;
     `initJxW_bind_setJxW` what follows the prologue never sees the buffer;
     `scaleJxW_ok`        with every `J(q)` computed, the loop fails iff some `J(q) ≤ 0`,
                          and otherwise returns `w_q · J(q)`;
     `scaleJxW_congr`     the loop only reads `J` at the buffer's indices;
     `scaleJxW_eq_error`  it fails by a non-positive `J`, or where `J` fails. -/

namespace IBTK

variable {R : Type}

/-- The state of `JacobianCalculator`: its key, the rule's points and weights, and the
buffer `get_JxW` returns. -/
structure JacobianCalculator (R : Type) where
  quadKey : KeyType
  quadPoints : List (Point R)
  quadWeights : List R
  JxW : List R

/-- `JacobianCalculator(quad_key)`. `rule` is what `QBase::build(quad_type, dim, order)`
followed by `init(elem_type)` gives for the key; `d_JxW.resize` fills the buffer with
zeros. -/
def JacobianCalculator.new [Zero R] (quadKey : KeyType) (rule : QRule R) :
    JacobianCalculator R :=
  { quadKey, quadPoints := rule.points, quadWeights := rule.weights,
    JxW := List.replicate rule.weights.length 0 }

/-- `std::copy(d_quad_weights.begin(), d_quad_weights.end(), d_JxW.begin())`. -/
def copyWeights (quadWeights JxW : List R) : Except JacobianError (List R) :=
  if quadWeights.length ≤ JxW.length then .ok (quadWeights ++ JxW.drop quadWeights.length)
  else .error .outOfRange

/-- The first two statements of every `get_JxW`: the element's type is the key's, and the
weights are copied into the buffer. -/
def JacobianCalculator.initJxW (c : JacobianCalculator R) (elem : Elem R) :
    Except JacobianError (List R) :=
  if elem.type = c.quadKey.elemType then copyWeights c.quadWeights c.JxW
  else .error .elemTypeMismatch

@[simp] theorem JacobianCalculator.new_quadKey [Zero R] (k : KeyType) (rule : QRule R) :
    (JacobianCalculator.new k rule).quadKey = k := rfl
@[simp] theorem JacobianCalculator.new_quadPoints [Zero R] (k : KeyType) (rule : QRule R) :
    (JacobianCalculator.new k rule).quadPoints = rule.points := rfl
@[simp] theorem JacobianCalculator.new_quadWeights [Zero R] (k : KeyType) (rule : QRule R) :
    (JacobianCalculator.new k rule).quadWeights = rule.weights := rfl
@[simp] theorem JacobianCalculator.new_JxW [Zero R] (k : KeyType) (rule : QRule R) :
    (JacobianCalculator.new k rule).JxW = List.replicate rule.weights.length 0 := rfl

/-- The base's state as its constructor leaves it, kept by every call: a buffer, and a list
of points, of the weights' length. -/
structure JacobianCalculator.WF (c : JacobianCalculator R) : Prop where
  length_JxW : c.JxW.length = c.quadWeights.length
  length_quadPoints : c.quadPoints.length = c.quadWeights.length

theorem JacobianCalculator.new_wf [Zero R] (k : KeyType) (rule : QRule R) :
    (JacobianCalculator.new k rule).WF :=
  ⟨by simp, rule.length_eq⟩

theorem copyWeights_of_length {w b : List R} (h : b.length = w.length) :
    copyWeights w b = .ok w := by
  simp [copyWeights, h]

theorem JacobianCalculator.initJxW_of_length {c : JacobianCalculator R} {elem : Elem R}
    (h : c.JxW.length = c.quadWeights.length) :
    c.initJxW elem =
      if elem.type = c.quadKey.elemType then .ok c.quadWeights else .error .elemTypeMismatch := by
  simp [initJxW, copyWeights_of_length h]

theorem JacobianCalculator.initJxW_of_ne {c : JacobianCalculator R} {elem : Elem R}
    (he : elem.type ≠ c.quadKey.elemType) : c.initJxW elem = .error .elemTypeMismatch :=
  if_neg he

/-- **The buffer never reaches the body.** A `get_JxW` is its prologue followed by a body
`k` that receives the copied weights; on a buffer of the weights' size the call is the same
whatever the buffer holds. -/
theorem JacobianCalculator.initJxW_bind_setJxW {β : Type} {c : JacobianCalculator R} (hc : c.WF)
    {v : List R} (hv : v.length = c.quadWeights.length) (elem : Elem R)
    (k : List R → Except JacobianError β) :
    (({ c with JxW := v } : JacobianCalculator R).initJxW elem >>= k) = (c.initJxW elem >>= k) := by
  rw [initJxW_of_length hv, initJxW_of_length hc.length_JxW]

theorem JacobianCalculator.initJxW_eq_ok {c : JacobianCalculator R} (hc : c.WF) {elem : Elem R}
    {w : List R} (h : c.initJxW elem = .ok w) : w = c.quadWeights := by
  rw [initJxW_of_length hc.length_JxW] at h
  split_ifs at h
  cases h
  rfl

/-- A `get_JxW` whose body keeps the length of the vector it receives returns a vector of
the weights' size. -/
theorem JacobianCalculator.length_of_initJxW_bind {c : JacobianCalculator R} (hc : c.WF)
    {elem : Elem R} {k : List R → Except JacobianError (List R)}
    (hk : ∀ w v, k w = .ok v → v.length = w.length) {v : List R}
    (h : (c.initJxW elem >>= k) = .ok v) : v.length = c.quadWeights.length := by
  obtain ⟨w, hw, h⟩ := bind_eq_ok.mp h
  rw [hk w v h, initJxW_eq_ok hc hw]

section Loop

variable [LinearOrderedField R]

/-- `for (q = q0; ...; ++q) { J = J(q); TBOX_ASSERT(J > 0.0); d_JxW[q] *= J; }` over the
rest `ws` of the buffer. -/
def scaleJxW (J : Nat → Except JacobianError R) : Nat → List R → Except JacobianError (List R)
  | _, [] => .ok []
  | q, w :: ws => do
    let j ← J q
    if 0 < j then (w * j :: ·) <$> scaleJxW J (q + 1) ws
    else .error .nonPositiveJacobian

theorem scaleJxW_cons (J : Nat → Except JacobianError R) (q : Nat) (w : R) (ws : List R) :
    scaleJxW J q (w :: ws) = (J q >>= fun j =>
      if 0 < j then (w * j :: ·) <$> scaleJxW J (q + 1) ws else .error .nonPositiveJacobian) :=
  rfl

/-- **The loop, evaluated.** When every `J(q)` is computed, the loop fails iff some
`J(q) ≤ 0`, and otherwise multiplies each weight by its `J`. -/
theorem scaleJxW_ok (f : Nat → R) : ∀ (q : Nat) (ws : List R),
    scaleJxW (fun k => .ok (f k)) q ws =
      if ∀ k < ws.length, 0 < f (q + k) then .ok (ws.mapIdx fun k w => w * f (q + k))
      else .error .nonPositiveJacobian
  | _, [] => by simp [scaleJxW]
  | q, w :: ws => by
    have hshift : ∀ k, q + 1 + k = q + (k + 1) := by omega
    rw [scaleJxW_cons, ok_bind, scaleJxW_ok f (q + 1) ws, List.mapIdx_cons]
    simp only [hshift, List.length_cons, Nat.add_zero]
    by_cases h0 : 0 < f q
    · by_cases hr : ∀ k < ws.length, 0 < f (q + (k + 1))
      · have hall : ∀ k < ws.length + 1, 0 < f (q + k) := fun k hk => by
          cases k with
          | zero => simpa using h0
          | succ k => exact hr k (by omega)
        rw [if_pos h0, if_pos hr, if_pos hall, map_ok]
      · have hall : ¬ ∀ k < ws.length + 1, 0 < f (q + k) :=
          fun h => hr fun k hk => h (k + 1) (by omega)
        rw [if_pos h0, if_neg hr, if_neg hall, map_error]
    · have hall : ¬ ∀ k < ws.length + 1, 0 < f (q + k) :=
        fun h => h0 (by simpa using h 0 (by omega))
      rw [if_neg h0, if_neg hall]

theorem scaleJxW_mul_left {J : Nat → Except JacobianError R} {a : R} (ha : 0 < a) :
    ∀ (q : Nat) (ws : List R),
      scaleJxW (fun k => (a * ·) <$> J k) q ws = List.map (· * a) <$> scaleJxW J q ws
  | _, [] => rfl
  | q, w :: ws => by
    rw [scaleJxW_cons, scaleJxW_cons, scaleJxW_mul_left ha (q + 1) ws]
    cases J q with
    | error e => rfl
    | ok j =>
      rw [map_ok, ok_bind, ok_bind]
      by_cases hj : 0 < j
      · rw [if_pos (mul_pos ha hj), if_pos hj]
        cases scaleJxW J (q + 1) ws with
        | error e => rfl
        | ok v => simp only [map_ok, List.map_cons, mul_comm a, mul_assoc]
      · rw [if_neg fun h => hj (pos_of_mul_pos_right h ha.le), if_neg hj]
        rfl

/-- With the same `J` at every point, the loop on a non-empty buffer is one assertion and a
scaling. -/
theorem scaleJxW_const (J : R) : ∀ (q : Nat) {ws : List R}, ws ≠ [] →
    scaleJxW (fun _ => .ok J) q ws =
      if 0 < J then .ok (ws.map (· * J)) else .error .nonPositiveJacobian
  | q, [w], _ => by by_cases h : 0 < J <;> simp [scaleJxW, h]
  | q, w :: w' :: ws, _ => by
    rw [scaleJxW_cons, ok_bind, scaleJxW_const J (q + 1) (List.cons_ne_nil w' ws)]
    by_cases h : 0 < J <;> simp [h]

theorem scaleJxW_const_of_ok {J : R} {ws v : List R}
    (h : (if 0 < J then .ok (ws.map (· * J)) else .error .nonPositiveJacobian :
      Except JacobianError (List R)) = .ok v) : scaleJxW (fun _ => .ok J) 0 ws = .ok v := by
  rcases eq_or_ne ws [] with rfl | h0
  · split_ifs at h
    cases h
    rfl
  · rw [scaleJxW_const _ 0 h0]
    exact h

theorem scaleJxW_const_zero (J : R) (ws : List R) :
    scaleJxW (fun _ => .ok J) 0 ws =
      if 0 < J ∨ ws = [] then .ok (ws.map (· * J)) else .error .nonPositiveJacobian := by
  rcases eq_or_ne ws [] with rfl | h0
  · rw [if_pos (Or.inr rfl)]
    rfl
  · rw [scaleJxW_const J 0 h0]
    simp only [h0, or_false]

theorem scaleJxW_congr {J J' : Nat → Except JacobianError R} : ∀ {q : Nat} {ws : List R},
    (∀ k < ws.length, J (q + k) = J' (q + k)) → scaleJxW J q ws = scaleJxW J' q ws
  | _, [], _ => rfl
  | q, w :: ws, h => by
    have h0 : J q = J' q := by simpa using h 0 (by simp)
    have hr : ∀ k < ws.length, J (q + 1 + k) = J' (q + 1 + k) := fun k hk => by
      simpa [Nat.add_assoc, Nat.add_comm 1] using h (k + 1) (by simp; omega)
    rw [scaleJxW_cons, scaleJxW_cons, h0, scaleJxW_congr hr]

theorem scaleJxW_of_ok {J : Nat → Except JacobianError R} (f : Nat → R) {ws : List R}
    (h : ∀ q < ws.length, J q = .ok (f q)) :
    scaleJxW J 0 ws =
      if ∀ q < ws.length, 0 < f q then .ok (ws.mapIdx fun q w => w * f q)
      else .error .nonPositiveJacobian := by
  rw [@scaleJxW_congr _ _ J (fun q => .ok (f q)) 0 ws fun k hk => by
    rw [Nat.zero_add]; exact h k hk, scaleJxW_ok]
  simp only [Nat.zero_add]

theorem scaleJxW_eq_error {J : Nat → Except JacobianError R} {e : JacobianError} :
    ∀ {q : Nat} {ws : List R}, scaleJxW J q ws = .error e →
      e = .nonPositiveJacobian ∨ ∃ k < ws.length, J (q + k) = .error e
  | _, [], h => by cases h
  | q, w :: ws, h => by
    rw [scaleJxW_cons] at h
    cases hq : J q with
    | error e' => rw [hq] at h; cases h; exact .inr ⟨0, by simp, by simpa using hq⟩
    | ok j =>
      rw [hq, ok_bind] at h
      split_ifs at h
      · cases hr : scaleJxW J (q + 1) ws with
        | ok v => rw [hr] at h; cases h
        | error e' =>
          rw [hr] at h; cases h
          rcases scaleJxW_eq_error hr with h' | ⟨k, hk, h'⟩
          · exact .inl h'
          · exact .inr ⟨k + 1, by simp; omega, by simpa [Nat.add_assoc, Nat.add_comm 1] using h'⟩
      · cases h; exact .inl rfl

theorem scaleJxW_length {J : Nat → Except JacobianError R} :
    ∀ {q : Nat} {ws v : List R}, scaleJxW J q ws = .ok v → v.length = ws.length
  | _, [], _, h => by cases h; rfl
  | q, w :: ws, v, h => by
    rw [scaleJxW_cons] at h
    obtain ⟨j, -, h⟩ := bind_eq_ok.mp h
    split_ifs at h
    · cases hr : scaleJxW J (q + 1) ws with
      | ok v' => rw [hr] at h; cases h; simp [scaleJxW_length hr]
      | error e => rw [hr] at h; cases h

end Loop

end IBTK
