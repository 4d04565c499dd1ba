import Mathlib.Algebra.Group.Nat.Defs
import Mathlib.Algebra.Ring.Nat
import Mathlib.Tactic.Linarith

/-!
# Event machines

A machine refuses an event with `none` (the system cannot take it in that
state) and otherwise moves on deterministically. All nondeterminism (delivery
order, failures, random choices, user gestures) sits in the event list, so a
theorem about every run is a theorem about every event list.
-/
namespace Arthius.Lib

structure Machine (σ ε : Type*) where
  step : σ → ε → Option σ

namespace Machine

variable {σ ε : Type*} (m : Machine σ ε)

def run : σ → List ε → Option σ
  | s, [] => some s
  | s, e :: es => (m.step s e).bind fun s' => run s' es

/-- Every step taken along the run meets a condition on the event and on the
state before the step. -/
def Meets (ok : σ → ε → Prop) : σ → List ε → Prop
  | _, [] => True
  | s, e :: es => ok s e ∧ ∀ s', m.step s e = some s' → Meets ok s' es

/-- Sum over the steps taken of a quantity read off each step. -/
def tally (f : σ → ε → Nat) : σ → List ε → Nat
  | _, [] => 0
  | s, e :: es => match m.step s e with
    | some s' => f s e + tally f s' es
    | none => 0

/-- The property holds in every state the run passes through. -/
def Always (P : σ → Prop) (s : σ) (es : List ε) : Prop :=
  ∀ before after s', es = before ++ after → m.run s before = some s' → P s'

@[simp] theorem run_nil (s : σ) : m.run s [] = some s := rfl

theorem run_cons_some {s t : σ} {e : ε} {es : List ε} :
    m.run s (e :: es) = some t ↔ ∃ s', m.step s e = some s' ∧ m.run s' es = some t := by
  simp only [run, Option.bind_eq_some_iff]

/-- A fold that may fail is a run. -/
theorem foldlM_eq_run (f : σ → ε → Option σ) (s : σ) (es : List ε) :
    es.foldlM f s = (Machine.mk f).run s es := by
  induction es generalizing s with
  | nil => rfl
  | cons e es ih => simp only [List.foldlM_cons, run, ih, Option.bind_eq_bind]

theorem run_append_some {s t : σ} {es fs : List ε} :
    m.run s (es ++ fs) = some t ↔ ∃ s', m.run s es = some s' ∧ m.run s' fs = some t := by
  induction es generalizing s with
  | nil => simp
  | cons e es ih =>
    simp only [List.cons_append, run_cons_some, ih]
    constructor
    · rintro ⟨s₁, hs, s₂, he, hf⟩
      exact ⟨s₂, ⟨s₁, hs, he⟩, hf⟩
    · rintro ⟨s₂, ⟨s₁, hs, he⟩, hf⟩
      exact ⟨s₁, hs, s₂, he, hf⟩

theorem meets_true (s : σ) (es : List ε) : m.Meets (fun _ _ => True) s es := by
  induction es generalizing s with
  | nil => trivial
  | cons e es ih => exact ⟨trivial, fun s' _ => ih s'⟩

/-- An invariant kept by every step that meets `C` holds after every run whose
steps all meet `C`. -/
theorem run_invariant_of_meets {C : σ → ε → Prop} {I : σ → Prop}
    (keep : ∀ s e s', I s → C s e → m.step s e = some s' → I s')
    {s t : σ} {es : List ε} (start : I s) (meets : m.Meets C s es)
    (success : m.run s es = some t) : I t := by
  induction es generalizing s with
  | nil => cases success; exact start
  | cons e es ih =>
    obtain ⟨s', hstep, hrest⟩ := m.run_cons_some.mp success
    exact ih (keep s e s' start meets.1 hstep) (meets.2 s' hstep) hrest

theorem run_invariant {I : σ → Prop}
    (keep : ∀ s e s', I s → m.step s e = some s' → I s')
    {s t : σ} {es : List ε} (start : I s) (success : m.run s es = some t) : I t :=
  m.run_invariant_of_meets (fun s e s' held _ hstep => keep s e s' held hstep) start
    (m.meets_true s es) success

/-- Two machines in lockstep: states that are related stay so, event by event. -/
theorem run_lockstep {τ δ : Type*} (n : Machine τ δ) (other : ε → δ) {R : σ → τ → Prop}
    (steps : ∀ s t e s' t', R s t → m.step s e = some s' → n.step t (other e) = some t' → R s' t')
    {s s' : σ} {t t' : τ} {es : List ε} (start : R s t) (run : m.run s es = some s')
    (run' : n.run t (es.map other) = some t') : R s' t' := by
  induction es generalizing s t with
  | nil =>
    cases run
    cases run'
    exact start
  | cons e es ih =>
    obtain ⟨next, hstep, hrest⟩ := m.run_cons_some.mp run
    obtain ⟨next', hstep', hrest'⟩ := n.run_cons_some.mp run'
    exact ih (steps s t e next next' start hstep hstep') hrest hrest'

theorem meets_append {C : σ → ε → Prop} {s t : σ} {es fs : List ε}
    (success : m.run s es = some t) :
    m.Meets C s (es ++ fs) ↔ m.Meets C s es ∧ m.Meets C t fs := by
  induction es generalizing s with
  | nil => cases success; simp [Meets]
  | cons e es ih =>
    obtain ⟨s', hstep, hrest⟩ := m.run_cons_some.mp success
    simp only [List.cons_append, Meets, hstep, Option.some.injEq, forall_eq', ih hrest, and_assoc]

/-- A condition that follows from another one in the states of an invariant,
which the steps that meet the other one keep. -/
theorem meets_imp {C D : σ → ε → Prop} {I : σ → Prop} (weaker : ∀ s e, I s → C s e → D s e)
    (keep : ∀ s e s', I s → C s e → m.step s e = some s' → I s') {s : σ} {es : List ε} (start : I s)
    (meets : m.Meets C s es) : m.Meets D s es := by
  induction es generalizing s with
  | nil => trivial
  | cons e es ih =>
    obtain ⟨first, rest⟩ := meets
    exact ⟨weaker s e start first, fun s' hstep => ih (keep s e s' start first hstep) (rest s' hstep)⟩

/-- Two conditions that say the same there. -/
theorem meets_congr {C D : σ → ε → Prop} {I : σ → Prop} (same : ∀ s e, I s → (C s e ↔ D s e))
    (keep : ∀ s e s', I s → C s e → m.step s e = some s' → I s') {s : σ} {es : List ε} (start : I s) :
    m.Meets C s es ↔ m.Meets D s es := by
  constructor
  · exact m.meets_imp (fun s e held => (same s e held).mp) keep start
  · exact m.meets_imp (fun s e held => (same s e held).mpr)
      (fun s e s' held met => keep s e s' held ((same s e held).mpr met)) start

theorem meets_cons {C : σ → ε → Prop} {s s' : σ} {e : ε} {es : List ε}
    (hstep : m.step s e = some s') :
    m.Meets C s (e :: es) ↔ C s e ∧ m.Meets C s' es := by
  simp only [Meets, hstep, Option.some.injEq, forall_eq']

theorem meets_refused {C : σ → ε → Prop} {s : σ} {e : ε} {es : List ε}
    (refused : m.step s e = none) : m.Meets C s (e :: es) ↔ C s e := by
  simp only [Meets, refused, reduceCtorEq, false_implies, implies_true, and_true]

/-- On a given run the condition can be checked step by step. -/
instance decidableMeets (C : σ → ε → Prop) [∀ s e, Decidable (C s e)] :
    ∀ (s : σ) (es : List ε), Decidable (m.Meets C s es)
  | _, [] => .isTrue trivial
  | s, e :: es => match hstep : m.step s e with
    | some s' =>
      let _ := decidableMeets C s' es
      decidable_of_iff _ (m.meets_cons hstep).symm
    | none => decidable_of_iff _ (m.meets_refused hstep).symm

theorem always_cons {P : σ → Prop} {s s' : σ} {e : ε} {es : List ε}
    (hstep : m.step s e = some s') : m.Always P s (e :: es) ↔ P s ∧ m.Always P s' es := by
  constructor
  · intro always
    refine ⟨always [] (e :: es) s rfl rfl, fun before after u split reached => ?_⟩
    exact always (e :: before) after u (by rw [split]; rfl) (m.run_cons_some.mpr ⟨s', hstep, reached⟩)
  · rintro ⟨first, rest⟩ before after u split reached
    cases before with
    | nil => cases reached; exact first
    | cons b before =>
      cases split
      obtain ⟨next, hnext, reached⟩ := m.run_cons_some.mp reached
      cases hstep.symm.trans hnext
      exact rest before after u rfl reached

/-- Where the condition is exact for one step, it is exact for whole runs. -/
theorem always_iff_meets {P : σ → Prop} {C : σ → ε → Prop}
    (exact_ : ∀ s e s', P s → m.step s e = some s' → (P s' ↔ C s e))
    {s t : σ} {es : List ε} (start : P s) (success : m.run s es = some t) :
    m.Always P s es ↔ m.Meets C s es := by
  induction es generalizing s with
  | nil =>
    refine iff_of_true (fun before after s' split reached => ?_) trivial
    obtain ⟨rfl, rfl⟩ := List.append_eq_nil_iff.mp split.symm
    cases reached
    exact start
  | cons e es ih =>
    obtain ⟨s', hstep, hrest⟩ := m.run_cons_some.mp success
    have one := exact_ s e s' start hstep
    rw [m.always_cons hstep, m.meets_cons hstep]
    constructor
    · rintro ⟨_, always⟩
      have after : P s' := always [] es s' rfl rfl
      exact ⟨one.mp after, (ih after hrest).mp always⟩
    · rintro ⟨meets, rest⟩
      exact ⟨start, (ih (one.mpr meets) hrest).mpr rest⟩

/-- The same, where the condition is exact in the states of an invariant. -/
theorem always_iff_meets_of_invariant {I P : σ → Prop} {C : σ → ε → Prop}
    (keep : ∀ s e s', I s → m.step s e = some s' → I s')
    (exact_ : ∀ s e s', I s → P s → m.step s e = some s' → (P s' ↔ C s e))
    {s t : σ} {es : List ε} (held : I s) (start : P s) (success : m.run s es = some t) :
    m.Always P s es ↔ m.Meets C s es := by
  have both : m.Always (fun s => I s ∧ P s) s es ↔ m.Meets C s es :=
    m.always_iff_meets (fun s e s' now hstep =>
      (and_iff_right (keep s e s' now.1 hstep)).trans (exact_ s e s' now.1 now.2 hstep)) ⟨held, start⟩ success
  rw [← both]
  constructor
  · exact fun always before after s' split reached =>
      ⟨m.run_invariant keep held reached, always before after s' split reached⟩
  · exact fun always before after s' split reached => (always before after s' split reached).2

/-- Conservation over a run, from conservation over one step: what the steps
add and what they lose account for the change of `amount`. -/
theorem run_balance {amount : σ → Nat} {gain loss : σ → ε → Nat}
    (balance : ∀ s e s', m.step s e = some s' →
      amount s' + loss s e = amount s + gain s e)
    {s t : σ} {es : List ε} (success : m.run s es = some t) :
    amount t + m.tally loss s es = amount s + m.tally gain s es := by
  induction es generalizing s with
  | nil => cases success; rfl
  | cons e es ih =>
    obtain ⟨s', hstep, hrest⟩ := m.run_cons_some.mp success
    have first := balance s e s' hstep
    have rest := ih hrest
    simp only [tally, hstep]
    omega

/-- A tally vanishes exactly when every step taken contributes nothing. -/
theorem tally_eq_zero_iff {f : σ → ε → Nat} {s t : σ} {es : List ε}
    (success : m.run s es = some t) :
    m.tally f s es = 0 ↔ m.Meets (fun s e => f s e = 0) s es := by
  induction es generalizing s with
  | nil => simp [tally, Meets]
  | cons e es ih =>
    obtain ⟨s', hstep, hrest⟩ := m.run_cons_some.mp success
    simp only [tally, hstep, Meets, Nat.add_eq_zero_iff, ih hrest, Option.some.injEq,
      forall_eq']

end Machine

/-- Blocks dispatched with deadlines are all due after a long enough wait. -/
theorem exists_wait {β α : Type*} [AddCommGroup α] [LinearOrder α] [IsOrderedAddMonoid α]
    (deadline : β → α) (pending : List β) (now : α) :
    ∃ seconds, 0 ≤ seconds ∧ ∀ block ∈ pending, deadline block ≤ now + seconds := by
  induction pending with
  | nil => exact ⟨0, le_refl 0, by simp⟩
  | cons first rest ih =>
    obtain ⟨seconds, nonneg, later⟩ := ih
    refine ⟨max seconds (deadline first - now), le_max_of_le_left nonneg, ?_⟩
    intro block member
    rw [← sub_le_iff_le_add']
    rcases List.mem_cons.mp member with rfl | member
    · exact le_max_right _ _
    · exact (sub_le_iff_le_add'.mpr (later block member)).trans (le_max_left _ _)

end Arthius.Lib
