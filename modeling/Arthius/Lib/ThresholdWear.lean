import Mathlib.Algebra.Order.Field.Basic
import Mathlib.Data.List.Sort
import Mathlib.Tactic.Linarith
import Mathlib.Tactic.Ring

/-!
# Wear by thresholds

Something meets a list of others in turn, and loses one unit to each that it is not
below the threshold of at that moment. How much it loses depends on their order: most
if the highest threshold comes first, least if the lowest does. When these agree can
be read off the numbers of thresholds below it.
-/
namespace Arthius.Lib.ThresholdWear

variable {α K : Type*} [LinearOrder K]

section Reach
variable (threshold : α → K)

/-- How many of the list `t` is not below the threshold of. -/
def within (t : K) (l : List α) : ℕ := l.countP fun x => threshold x ≤ t

variable {threshold} {t : K} {x : α} {l : List α}

theorem within_hit (inReach : threshold x ≤ t) :
    within threshold t (x :: l) = within threshold t l + 1 :=
  List.countP_cons_of_pos (decide_eq_true inReach)

theorem within_missed (missed : ¬ threshold x ≤ t) : within threshold t (x :: l) = within threshold t l :=
  List.countP_cons_of_neg (by simpa using missed)

theorem within_le_cons (t : K) (x : α) (l : List α) : within threshold t l ≤ within threshold t (x :: l) := by
  by_cases inReach : threshold x ≤ t
  · rw [within_hit inReach]
    exact Nat.le_succ _
  · rw [within_missed inReach]

theorem cons_le_within (t : K) (x : α) (l : List α) :
    within threshold t (x :: l) ≤ within threshold t l + 1 := by
  by_cases inReach : threshold x ≤ t
  · rw [within_hit inReach]
  · rw [within_missed inReach]
    exact Nat.le_succ _

theorem within_mono {s : K} (below : s ≤ t) : within threshold s l ≤ within threshold t l :=
  List.countP_mono_left fun x _ inReach => by
    rw [decide_eq_true_eq] at inReach ⊢
    exact inReach.trans below

theorem within_perm {l' : List α} (perm : l'.Perm l) : within threshold t l' = within threshold t l :=
  perm.countP_eq _

theorem exists_ascending (threshold : α → K) (l : List α) :
    ∃ l' : List α, l'.Perm l ∧ l'.Pairwise fun x y => threshold x ≤ threshold y := by
  have total : Std.Total fun x y : α => threshold x ≤ threshold y := ⟨fun x y => le_total _ _⟩
  have trans_ : IsTrans α fun x y => threshold x ≤ threshold y := ⟨fun x y z => le_trans⟩
  exact ⟨l.insertionSort fun x y => threshold x ≤ threshold y, List.perm_insertionSort _ l,
    List.pairwise_insertionSort _ l⟩

end Reach

section Wear
variable [Field K] (threshold : α → K)

/-- How many units `t` loses to the list. -/
def hits : K → List α → ℕ
  | _, [] => 0
  | t, x :: l => if threshold x ≤ t then hits (t - 1) l + 1 else hits t l

/-- In whatever order, `t` loses `k` units: so many are in reach until the last of them is
lost, and no others are in reach at the start, or none are at the end. -/
def Loses (t : K) (l : List α) (k : ℕ) : Prop :=
  k ≤ within threshold (t - k + 1) l ∧ (within threshold t l = k ∨ within threshold (t - k) l = 0)

variable {threshold} {t : K} {x : α} {l : List α}

theorem hits_hit (inReach : threshold x ≤ t) :
    hits threshold t (x :: l) = hits threshold (t - 1) l + 1 := if_pos inReach

theorem hits_missed (missed : ¬ threshold x ≤ t) : hits threshold t (x :: l) = hits threshold t l :=
  if_neg missed

theorem Loses.perm {k : ℕ} (loses : Loses threshold t l k) {l' : List α} (perm : l'.Perm l) :
    Loses threshold t l' k := by
  unfold Loses
  rw [within_perm perm, within_perm perm, within_perm perm]
  exact loses

variable [IsStrictOrderedRing K]

/-- After `r` units only those that are still in reach can take one more. -/
theorem hits_le (threshold : α → K) (t : K) (l : List α) (r : ℕ) :
    hits threshold t l ≤ r + within threshold (t - r) l := by
  induction l generalizing t r with
  | nil => exact Nat.zero_le _
  | cons x l ih =>
    by_cases inReach : threshold x ≤ t
    · rw [hits_hit inReach]
      cases r with
      | zero =>
        have rest := ih (t - 1) 0
        have fewer : within threshold (t - 1 - (0 : ℕ)) l ≤ within threshold t l :=
          within_mono (by push_cast; linarith)
        rw [Nat.cast_zero, sub_zero, within_hit inReach]
        omega
      | succ r =>
        have rest := ih (t - 1) r
        have here : t - 1 - (r : K) = t - (r + 1 : ℕ) := by
          push_cast
          ring
        rw [here] at rest
        have all : within threshold (t - (r + 1 : ℕ)) l ≤ within threshold (t - (r + 1 : ℕ)) (x :: l) :=
          within_le_cons _ x l
        omega
    · rw [hits_missed inReach]
      exact (ih t r).trans (Nat.add_le_add_left (within_le_cons _ x l) r)

/-- While fewer than `k` units are lost, those within that reach take one each. -/
theorem le_hits {k : ℕ} (enough : k ≤ within threshold (t - k + 1) l) : k ≤ hits threshold t l := by
  induction l generalizing t k with
  | nil => exact enough
  | cons x l ih =>
    cases k with
    | zero => exact Nat.zero_le _
    | succ k =>
      have lower : t - (k + 1 : ℕ) + 1 = t - k := by
        push_cast
        ring
      rw [lower] at enough
      by_cases inReach : threshold x ≤ t
      · rw [hits_hit inReach]
        have rest : within threshold (t - k) (x :: l) ≤ within threshold (t - k) l + 1 :=
          cons_le_within _ x l
        have next : t - 1 - (k : K) + 1 = t - k := by ring
        have others : k ≤ hits threshold (t - 1) l := ih (by rw [next]; omega)
        omega
      · have nonneg : (0 : K) ≤ k := Nat.cast_nonneg k
        have out : ¬ threshold x ≤ t - k := fun still => inReach (still.trans (by linarith))
        rw [within_missed out] at enough
        rw [hits_missed inReach]
        exact ih (by rwa [lower])

/-- With the lowest thresholds first, what is hit was in reach until the end. -/
theorem hits_ascending (ascending : l.Pairwise fun x y => threshold x ≤ threshold y) :
    hits threshold t l ≤ within threshold (t - hits threshold t l + 1) l := by
  induction l generalizing t with
  | nil => exact Nat.zero_le _
  | cons x l ih =>
    obtain ⟨lowest, rest⟩ := List.pairwise_cons.mp ascending
    by_cases inReach : threshold x ≤ t
    · have later := ih (t := t - 1) rest
      rw [hits_hit inReach]
      generalize hits threshold (t - 1) l = k at later ⊢
      have here : t - (k + 1 : ℕ) + 1 = t - k := by
        push_cast
        ring
      have next : t - 1 - (k : K) + 1 = t - k := by ring
      rw [next] at later
      rw [here]
      have first : threshold x ≤ t - k := by
        cases k with
        | zero => simpa using inReach
        | succ k =>
          obtain ⟨y, member, reaches⟩ := List.countP_pos_iff.mp (Nat.lt_of_lt_of_le (Nat.succ_pos k) later)
          exact (lowest y member).trans (of_decide_eq_true reaches)
      rw [within_hit first]
      exact Nat.succ_le_succ later
    · have none_ : within threshold (t - (0 : ℕ)) l = 0 := by
        refine List.countP_eq_zero.mpr fun y member reaches => inReach ?_
        have lower := (lowest y member).trans (of_decide_eq_true reaches)
        simpa using lower
      have most := hits_le threshold t l 0
      rw [hits_missed inReach]
      omega

/-- With the highest thresholds first, all that are still in reach at some time are hit. -/
theorem hits_descending (descending : l.Pairwise fun x y => threshold y ≤ threshold x) (t : K) :
    ∃ r : ℕ, hits threshold t l = r + within threshold (t - r) l := by
  induction l generalizing t with
  | nil => exact ⟨0, rfl⟩
  | cons x l ih =>
    obtain ⟨highest, rest⟩ := List.pairwise_cons.mp descending
    by_cases inReach : threshold x ≤ t
    · obtain ⟨r, later⟩ := ih rest (t - 1)
      have here : t - 1 - (r : K) = t - (r + 1 : ℕ) := by
        push_cast
        ring
      rw [here] at later
      by_cases still : threshold x ≤ t - (r + 1 : ℕ)
      · -- all the others are still in reach, so no unit was lost but to them
        have all : ∀ s ≥ t - (r + 1 : ℕ), within threshold s l = l.length := fun s above =>
          List.countP_eq_length.mpr fun y member =>
            decide_eq_true (((highest y member).trans still).trans above)
        have nonneg : (0 : K) ≤ (r + 1 : ℕ) := Nat.cast_nonneg _
        have most := hits_le threshold (t - 1) l 0
        have within_ : within threshold (t - 1 - (0 : ℕ)) l ≤ l.length := List.countP_le_length
        rw [all _ le_rfl] at later
        refine ⟨0, ?_⟩
        rw [hits_hit inReach, Nat.cast_zero, sub_zero, within_hit inReach, all t (by linarith), later]
        omega
      · refine ⟨r + 1, ?_⟩
        rw [hits_hit inReach, within_missed still, later]
        omega
    · obtain ⟨r, later⟩ := ih rest t
      have nonneg : (0 : K) ≤ r := Nat.cast_nonneg r
      have out : ¬ threshold x ≤ t - r := fun still => inReach (still.trans (by linarith))
      exact ⟨r, by rw [hits_missed inReach, within_missed out, later]⟩

theorem Loses.hits_eq {k : ℕ} (loses : Loses threshold t l k) : hits threshold t l = k := by
  obtain ⟨enough, ends⟩ := loses
  refine le_antisymm ?_ (le_hits enough)
  rcases ends with all | none_
  · have most := hits_le threshold t l 0
    rw [Nat.cast_zero, sub_zero, all] at most
    omega
  · have most := hits_le threshold t l k
    rwa [none_, Nat.add_zero] at most

/-- The order does not matter exactly if the numbers in reach say how many units are lost. -/
theorem hits_perm_iff (threshold : α → K) (t : K) (l : List α) :
    (∀ l' : List α, l'.Perm l → hits threshold t l' = hits threshold t l) ↔
      Loses threshold t l (hits threshold t l) := by
  constructor
  · intro same
    generalize hits threshold t l = k at same ⊢
    obtain ⟨up, perm, ascending⟩ := exists_ascending threshold l
    have least := hits_ascending (t := t) ascending
    obtain ⟨r, most⟩ := hits_descending (List.pairwise_reverse.mpr ascending) t
    rw [same up perm, within_perm perm] at least
    rw [same up.reverse (up.reverse_perm.trans perm), within_perm (up.reverse_perm.trans perm)] at most
    refine ⟨least, ?_⟩
    rcases Nat.eq_zero_or_pos r with rfl | positive
    · left
      rw [Nat.cast_zero, sub_zero] at most
      omega
    · right
      rcases Nat.lt_or_ge r k with early | late
      · -- those within the last reach would be more than are left
        have before : (r : K) ≤ k - 1 := by
          have cast : ((r + 1 : ℕ) : K) ≤ k := Nat.cast_le.mpr early
          push_cast at cast
          linarith
        have more : within threshold (t - k + 1) l ≤ within threshold (t - r) l := within_mono (by linarith)
        omega
      · obtain rfl : r = k := by omega
        omega
  · intro loses l' perm
    exact (loses.perm perm).hits_eq

end Wear

end Arthius.Lib.ThresholdWear
