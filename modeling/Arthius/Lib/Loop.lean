import Mathlib.Logic.Function.Iterate
import Mathlib.Data.Nat.Find
import Mathlib.Data.Option.Basic
import Mathlib.Tactic.Common

/-!
# While loops

A loop is a guard and a body. It runs on fuel, one unit for each test of the
guard, so that a loop that does not exit is one that returns for no fuel. The
states a loop goes through are the iterates of its body.
-/
namespace Arthius.Lib

structure Loop (σ : Type*) where
  guard : σ → Prop
  test : DecidablePred guard
  body : σ → σ

namespace Loop

variable {σ τ : Type*} (l : Loop σ)

instance : DecidablePred l.guard := l.test

/-- The state in which the guard first fails, if the fuel lasts so long. -/
def run : ℕ → σ → Option σ
  | 0, _ => none
  | fuel + 1, s => if l.guard s then run fuel (l.body s) else some s

/-- The states that a run goes through, the last one included. -/
def trace : ℕ → σ → List σ
  | 0, _ => []
  | fuel + 1, s => s :: if l.guard s then trace fuel (l.body s) else []

/-- The state after so many turns, guard or no guard. -/
abbrev after (n : ℕ) (s : σ) : σ := l.body^[n] s

/-- The loop exits at turn `n`: the guard holds up to there and fails there. -/
def ExitsAt (s : σ) (n : ℕ) : Prop :=
  (∀ i < n, l.guard (l.after i s)) ∧ ¬ l.guard (l.after n s)

theorem after_succ (n : ℕ) (s : σ) : l.after (n + 1) s = l.body (l.after n s) :=
  Function.iterate_succ_apply' l.body n s

theorem ExitsAt.next {s : σ} {n : ℕ} (exits : l.ExitsAt (l.body s) n) (enters : l.guard s) :
    l.ExitsAt s (n + 1) := by
  refine ⟨fun i below => ?_, exits.2⟩
  cases i with
  | zero => exact enters
  | succ i => exact exits.1 i (Nat.lt_of_succ_lt_succ below)

theorem ExitsAt.unique {s : σ} {m n : ℕ} (exits : l.ExitsAt s m) (exits' : l.ExitsAt s n) : m = n := by
  rcases Nat.lt_trichotomy m n with below | same | above
  · exact absurd (exits'.1 m below) exits.2
  · exact same
  · exact absurd (exits.1 n above) exits'.2

/-- What a run returns is the state at the turn at which the loop exits. -/
theorem run_eq_some_iff {fuel : ℕ} {s t : σ} :
    l.run fuel s = some t ↔ ∃ n < fuel, l.ExitsAt s n ∧ t = l.after n s := by
  induction fuel generalizing s with
  | zero => simp [run]
  | succ fuel ih =>
    unfold run
    by_cases enters : l.guard s
    · rw [if_pos enters, ih]
      constructor
      · intro ⟨n, below, exits, is⟩
        exact ⟨n + 1, Nat.succ_lt_succ below, exits.next l enters, is⟩
      · intro ⟨n, below, exits, is⟩
        cases n with
        | zero => exact absurd enters exits.2
        | succ n =>
          refine ⟨n, Nat.lt_of_succ_lt_succ below, ⟨fun i earlier => ?_, exits.2⟩, is⟩
          exact exits.1 (i + 1) (Nat.succ_lt_succ earlier)
    · rw [if_neg enters, Option.some.injEq]
      constructor
      · intro is
        exact ⟨0, Nat.succ_pos fuel, ⟨fun i below => absurd below (Nat.not_lt_zero i), enters⟩,
          is.symm⟩
      · intro ⟨n, _, exits, is⟩
        cases n with
        | zero => exact is.symm
        | succ n => exact absurd (exits.1 0 (Nat.succ_pos n)) enters

/-- More fuel changes no result. -/
theorem run_mono {fuel fuel' : ℕ} (more : fuel ≤ fuel') {s t : σ}
    (success : l.run fuel s = some t) : l.run fuel' s = some t := by
  rw [run_eq_some_iff] at success ⊢
  obtain ⟨n, below, exits, is⟩ := success
  exact ⟨n, lt_of_lt_of_le below more, exits, is⟩

/-- A loop whose guard fails somewhere along its iterates exits. -/
theorem exists_exitsAt {s : σ} {n : ℕ} (fails : ¬ l.guard (l.after n s)) :
    ∃ m ≤ n, l.ExitsAt s m := by
  classical
  have some_fails : ∃ m, ¬ l.guard (l.after m s) := ⟨n, fails⟩
  refine ⟨Nat.find some_fails, Nat.find_min' some_fails fails, ?_, Nat.find_spec some_fails⟩
  intro i below
  exact not_not.mp (Nat.find_min some_fails below)

/-- A loop returns for some fuel unless its guard holds forever. -/
theorem run_isSome_iff {s : σ} :
    (∃ fuel, (l.run fuel s).isSome) ↔ ∃ n, ¬ l.guard (l.after n s) := by
  constructor
  · intro ⟨fuel, returns⟩
    obtain ⟨t, success⟩ := Option.isSome_iff_exists.mp returns
    obtain ⟨n, _, exits, _⟩ := l.run_eq_some_iff.mp success
    exact ⟨n, exits.2⟩
  · intro ⟨n, fails⟩
    obtain ⟨m, _, exits⟩ := l.exists_exitsAt fails
    refine ⟨m + 1, Option.isSome_iff_exists.mpr ⟨l.after m s, ?_⟩⟩
    exact l.run_eq_some_iff.mpr ⟨m, Nat.lt_succ_self m, exits, rfl⟩

/-- An invariant kept by the body while the guard holds is kept along the
turns the loop makes. -/
theorem after_invariant {I : σ → Prop} (keep : ∀ s, I s → l.guard s → I (l.body s)) {s : σ}
    (start : I s) {n : ℕ} (enters : ∀ i < n, l.guard (l.after i s)) : I (l.after n s) := by
  induction n with
  | zero => exact start
  | succ n ih =>
    rw [after_succ]
    have before := ih fun i below => enters i (Nat.lt_succ_of_lt below)
    exact keep _ before (enters n (Nat.lt_succ_self n))

/-- Two loops in step: related states agree on the guard and stay related. -/
theorem run_related (l' : Loop τ) {R : σ → τ → Prop}
    (guards : ∀ s t, R s t → (l.guard s ↔ l'.guard t))
    (bodies : ∀ s t, R s t → l.guard s → R (l.body s) (l'.body t))
    {s : σ} {t : τ} (start : R s t) (fuel : ℕ) : Option.Rel R (l.run fuel s) (l'.run fuel t) := by
  induction fuel generalizing s t with
  | zero => exact Option.Rel.none
  | succ fuel ih =>
    unfold run
    by_cases enters : l.guard s
    · rw [if_pos enters, if_pos ((guards s t start).mp enters)]
      exact ih (bodies s t start enters)
    · rw [if_neg enters, if_neg fun enters' => enters ((guards s t start).mpr enters')]
      exact Option.Rel.some start

end Loop
end Arthius.Lib
