import Mathlib.Data.List.Basic
import Mathlib.Tactic.Common

/-!
# Programs that may fail

Rules of pre- and postconditions for stateful programs that return a value or
fail. `Ensures` speaks of one run: it fails only in the ways allowed, and what it
returns meets the postcondition. The simp set runs the primitive steps; `seq` goes
through a step by its specification, and a loop over a list has an invariant on
the elements done so far.
-/
namespace Arthius.Lib

variable {ε σ α β : Type}

@[irreducible] def Ensures (program : EStateM ε σ α) (s : σ) (fail : ε → Prop) (post : α → σ → Prop) : Prop :=
  match program s with
  | .ok a s' => post a s'
  | .error e _ => fail e

namespace Ensures

variable {program : EStateM ε σ α} {next : α → EStateM ε σ β} {s : σ} {fail : ε → Prop}
  {post mid : α → σ → Prop} {final : β → σ → Prop}

@[simp] theorem pure_iff {a : α} : Ensures (pure a) s fail post ↔ post a s := by
  unfold Ensures
  exact Iff.rfl

@[simp] theorem throw_iff {e : ε} : Ensures (throw e) s fail post ↔ fail e := by
  unfold Ensures
  exact Iff.rfl

@[simp] theorem get_iff {post : σ → σ → Prop} : Ensures get s fail post ↔ post s s := by
  unfold Ensures
  exact Iff.rfl

@[simp] theorem set_iff {t : σ} {post : PUnit → σ → Prop} :
    Ensures (set t) s fail post ↔ post ⟨⟩ t := by
  unfold Ensures
  exact Iff.rfl

@[simp] theorem modify_iff {f : σ → σ} {post : PUnit → σ → Prop} :
    Ensures (modify f) s fail post ↔ post ⟨⟩ (f s) := by
  unfold Ensures
  exact Iff.rfl

@[simp] theorem bind_iff : Ensures (program >>= next) s fail final ↔
    Ensures program s fail fun a s' => Ensures (next a) s' fail final := by
  unfold Ensures
  simp only [bind, EStateM.bind]
  cases program s <;> exact Iff.rfl

theorem mono (runs : Ensures program s fail mid) (weaker : ∀ a s', mid a s' → post a s') :
    Ensures program s fail post := by
  unfold Ensures at *
  split at runs
  · exact weaker _ _ runs
  · exact runs

/-- One program after the other, through the state between them. -/
theorem seq (first : Ensures program s fail mid)
    (rest : ∀ a s', mid a s' → Ensures (next a) s' fail final) :
    Ensures (program >>= next) s fail final :=
  bind_iff.mpr (first.mono rest)

/-- A run that never fails and always returns the same value. -/
theorem returns {value : α} {holds : σ → Prop}
    (runs : Ensures program s (fun _ => False) fun a s' => a = value ∧ holds s') :
    ∃ s', program s = .ok value s' := by
  unfold Ensures at runs
  split at runs
  · next s' returned =>
    obtain ⟨rfl, _⟩ := runs
    exact ⟨s', returned⟩
  · exact runs.elim

/-- The invariant of a loop speaks of the elements done so far. -/
theorem forM {γ : Type*} {body : γ → EStateM ε σ PUnit} (I : List γ → σ → Prop) (xs : List γ)
    (step : ∀ before x after s, xs = before ++ x :: after → I before s →
      Ensures (body x) s fail fun _ s' => I (before ++ [x]) s')
    (start : I [] s) : Ensures (xs.forM body) s fail fun _ s' => I xs s' := by
  suffices general : ∀ before rest s, xs = before ++ rest → I before s →
      Ensures (rest.forM body) s fail fun _ s' => I xs s' from general [] xs s rfl start
  intro before rest
  induction rest generalizing before with
  | nil =>
    intro s whole holds
    rw [List.append_nil] at whole
    exact pure_iff.mpr (whole ▸ holds)
  | cons x rest ih =>
    intro s whole holds
    refine seq (step before x rest s whole holds) fun _ s' holds' => ?_
    exact ih (before ++ [x]) s' (by simp [whole]) holds'

end Ensures
end Arthius.Lib
