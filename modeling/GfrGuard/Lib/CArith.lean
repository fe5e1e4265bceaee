import Mathlib.Algebra.Order.BigOperators.Group.List
import Mathlib.Algebra.Order.Group.Int
import Mathlib.Algebra.Order.Ring.Int

/-!
# Integer expressions of C

An expression over values, each operation in an integer type to which its operands are converted
without change. A machine computes it (`Expr.run`): unsigned results wrap, a signed overflow and a
division by zero have no result. `Expr.Fits` says that no operation leaves its type or divides by
zero. Then the result is that over the unbounded integers (`Expr.run_of_fits`). A sum of terms that
are not negative fits exactly when the terms do and the whole sum does (`Expr.fits_sum_iff`).
-/

namespace CArith

/-- An integer type. -/
structure IntType where
  bits : Nat
  signed : Bool
deriving DecidableEq

namespace IntType

/-- `int`. -/
def int : IntType := ⟨32, true⟩
/-- `unsigned`. -/
def unsigned : IntType := ⟨32, false⟩
/-- `long`. -/
def long : IntType := ⟨64, true⟩

/-- The smallest value. -/
def min (t : IntType) : Int := if t.signed then -2 ^ (t.bits - 1) else 0

/-- The largest value. -/
def max (t : IntType) : Int := if t.signed then 2 ^ (t.bits - 1) - 1 else 2 ^ t.bits - 1

/-- A value of the type. -/
def Holds (t : IntType) (v : Int) : Prop := t.min ≤ v ∧ v ≤ t.max

instance (t : IntType) (v : Int) : Decidable (t.Holds v) := inferInstanceAs (Decidable (_ ∧ _))

theorem min_nonpos (t : IntType) : t.min ≤ 0 := by
  unfold min
  split
  · exact Int.neg_nonpos_of_nonneg (Int.pow_nonneg (by decide))
  · exact le_rfl

end IntType

/-- An operation. -/
inductive Op where
  | add
  | sub
  | mul
  | div
deriving DecidableEq

/-- The result over the unbounded integers. -/
def Op.apply : Op → Int → Int → Int
  | add, a, b => a + b
  | sub, a, b => a - b
  | mul, a, b => a * b
  | div, a, b => a.tdiv b

/-- An expression. -/
inductive Expr where
  | val (v : Int)
  | op (t : IntType) (o : Op) (a b : Expr)

namespace Expr

/-- The value over the unbounded integers. -/
def exact : Expr → Int
  | val v => v
  | op _ o a b => o.apply a.exact b.exact

/-- A result in a type. -/
def finish (t : IntType) (v : Int) : Option Int :=
  if t.signed then (if t.Holds v then some v else none) else some (v % 2 ^ t.bits)

/-- What a machine computes; nothing where the behaviour is undefined. -/
def run : Expr → Option Int
  | val v => some v
  | op t o a b =>
    a.run.bind fun x => b.run.bind fun y =>
      if o = .div ∧ y = 0 then none else finish t (o.apply x y)

/-- No operation leaves its type or divides by zero. -/
def Fits : Expr → Prop
  | val _ => True
  | op t o a b => a.Fits ∧ b.Fits ∧ ¬ (o = .div ∧ b.exact = 0) ∧ t.Holds (o.apply a.exact b.exact)

section
variable {t : IntType} {e x : Expr} {es : List Expr}

theorem finish_of_holds {v : Int} (h : t.Holds v) : finish t v = some v := by
  unfold finish
  cases hsigned : t.signed with
  | true => rw [if_pos rfl, if_pos h]
  | false =>
    obtain ⟨hmin, hmax⟩ := h
    simp only [IntType.min, IntType.max, hsigned, Bool.false_eq_true, if_false] at hmin hmax
    rw [if_neg Bool.false_ne_true, Int.emod_eq_of_lt hmin (by omega)]

/-- An expression that fits has its exact value. -/
theorem run_of_fits (h : e.Fits) : e.run = some e.exact := by
  induction e with
  | val v => rfl
  | op t o a b iha ihb =>
    obtain ⟨ha, hb, hzero, hholds⟩ := h
    rw [run, iha ha, ihb hb, Option.bind_some, Option.bind_some, if_neg hzero, finish_of_holds hholds]
    rfl

/-! ## Sums -/

/-- `e + e₁ + e₂ + ...` -/
def sum (t : IntType) (e : Expr) (es : List Expr) : Expr := es.foldl (op t .add) e

theorem exact_sum (t : IntType) (e : Expr) (es : List Expr) :
    (sum t e es).exact = e.exact + (es.map exact).sum := by
  induction es generalizing e with
  | nil => simp [sum]
  | cons x es ih =>
    rw [sum, List.foldl_cons, ← sum, ih, List.map_cons, List.sum_cons, exact, Op.apply, Int.add_assoc]

theorem le_exact_sum (hpos : ∀ x ∈ es, 0 ≤ x.exact) : e.exact ≤ (sum t e es).exact := by
  rw [exact_sum]
  have hsum : 0 ≤ (es.map exact).sum := List.sum_nonneg fun v hv => by
    obtain ⟨x, hx, rfl⟩ := List.mem_map.1 hv
    exact hpos x hx
  omega

/-- A sum of terms that are not negative fits when its terms do and the largest partial sum, the last
one, does. -/
theorem fits_sum_iff (he : 0 ≤ e.exact) (hpos : ∀ x ∈ es, 0 ≤ x.exact) :
    (sum t e es).Fits ↔ e.Fits ∧ (∀ x ∈ es, x.Fits) ∧ (es ≠ [] → (sum t e es).exact ≤ t.max) := by
  induction es generalizing e with
  | nil => simp [sum]
  | cons x es ih =>
    have hx : 0 ≤ x.exact := hpos x List.mem_cons_self
    have hes : ∀ y ∈ es, 0 ≤ y.exact := fun y hy => hpos y (List.mem_cons_of_mem x hy)
    have hstep : (op t .add e x).exact = e.exact + x.exact := rfl
    have hmin := t.min_nonpos
    have hfits : (op t .add e x).Fits ↔ e.Fits ∧ x.Fits ∧ e.exact + x.exact ≤ t.max := by
      have hnot : ¬ (Op.add = .div ∧ x.exact = 0) := fun h => by cases h.1
      have hlow : t.min ≤ e.exact + x.exact := by omega
      exact ⟨fun h => ⟨h.1, h.2.1, h.2.2.2.2⟩, fun h => ⟨h.1, h.2.1, hnot, hlow, h.2.2⟩⟩
    have hle := le_exact_sum (t := t) (e := op t .add e x) hes
    have hcons : sum t e (x :: es) = sum t (op t .add e x) es := rfl
    rw [hcons, ih (by omega) hes, hfits, List.forall_mem_cons]
    constructor
    · rintro ⟨⟨hefits, hxfits, hmax⟩, hall, hlast⟩
      refine ⟨hefits, ⟨hxfits, hall⟩, fun _ => ?_⟩
      cases es with
      | nil => exact hmax
      | cons y es => exact hlast (List.cons_ne_nil y es)
    · rintro ⟨hefits, ⟨hxfits, hall⟩, hlast⟩
      have hlast := hlast (List.cons_ne_nil x es)
      exact ⟨⟨hefits, hxfits, by omega⟩, hall, fun _ => hlast⟩

end

end Expr

end CArith
