import Arthius.Source.ViewController

/-!
# The current screen is shown

A switch to a long-lived screen re-adds its view and leaves alone the removal
blocks that still hold it. The invariant is that no pending block holds the view
of the current screen; it survives every step except a switch to a screen whose
view is already scheduled for removal, or is just being scheduled by that very
switch. Each such switch can be followed to a settled state with a blank screen.
-/
namespace Arthius.Guarantees.CurrentScreen
open Arthius.Lib Arthius.Source.ViewController

/-- The view of the current screen, if it has one, is a subview. -/
def Shown (s : State) : Prop := ∀ view, s.viewOf s.currentView = some view → view ∈ s.subviews

/-- The step condition: a switch to a long-lived screen neither comes from that
screen nor finds a pending block that will remove its view. -/
def TargetFree (s : State) : Event → Prop
  | .switchToView newView _ _ _ => ∀ view, longLived newView = some view →
      s.viewOf s.currentView ≠ some view ∧ ∀ removal ∈ s.pending, removal.view ≠ view
  | _ => True

/-- The serial number of a level view is one already given out. -/
def Known (created : Nat) : ScreenView → Prop
  | .levelView serial | .createLevelView serial => serial < created
  | _ => True

theorem known_longLived {view : View} {old : ScreenView} (is : longLived view = some old)
    (created : Nat) : Known created old := by
  cases view <;> cases is <;> trivial

theorem Known.mono {created : Nat} {view : ScreenView} (known : Known created view) :
    Known (created + 1) view := by
  cases view with
  | levelView serial | createLevelView serial => exact Nat.lt_succ_of_lt known
  | _ => trivial

/-- Serial numbers in use have been given out. -/
structure Numbered (s : State) : Prop where
  pending : ∀ removal ∈ s.pending, Known s.created removal.view
  level : ∀ level, s.levelView = some level → level.serial < s.created
  create : ∀ serial, s.createLevelView = some serial → serial < s.created

theorem Numbered.current {s : State} (numbered : Numbered s) {view : ScreenView}
    (is : s.viewOf s.currentView = some view) : Known s.created view := by
  unfold State.viewOf at is
  split at is
  · obtain ⟨level, present, rfl⟩ := Option.map_eq_some_iff.mp is
    exact numbered.level level present
  · obtain ⟨serial, present, rfl⟩ := Option.map_eq_some_iff.mp is
    exact numbered.create serial present
  · exact known_longLived is s.created

/-- The first `switch` only schedules the removal of the current view. -/
theorem leave_eq {s left : State} {transitionTime : ℚ}
    (success : s.leave transitionTime = some left) :
    left = (s.viewOf s.currentView).elim s fun old => s.removeView old transitionTime := by
  unfold State.leave at success
  cases current : s.currentView with
  | levelPlay | levelCreate =>
    simp only [current, Option.map_eq_some_iff] at success
    obtain ⟨level, present, rfl⟩ := success
    simp [State.viewOf, present]
  | _ =>
    simp only [current, Option.some.injEq] at success
    exact success.symm

/-- The pending blocks after the first `switch`. -/
theorem mem_leave_pending {s left : State} {transitionTime : ℚ}
    (success : s.leave transitionTime = some left) (removal : Removal) :
    removal ∈ left.pending ↔ removal ∈ s.pending ∨
      ∃ old, s.viewOf s.currentView = some old ∧ removal = ⟨old, s.now + transitionTime⟩ := by
  rw [leave_eq success]
  cases s.viewOf s.currentView with
  | none => simp
  | some old => simp [State.removeView]

theorem leave_numbered {s left : State} {transitionTime : ℚ}
    (success : s.leave transitionTime = some left) (numbered : Numbered s) : Numbered left := by
  have pending : ∀ removal ∈ left.pending, Known s.created removal.view := by
    intro removal member
    rcases (mem_leave_pending success removal).mp member with old | ⟨old, is, rfl⟩
    · exact numbered.pending removal old
    · exact numbered.current is
  rw [leave_eq success] at pending ⊢
  cases current : s.viewOf s.currentView with
  | none => exact numbered
  | some old =>
    rw [current] at pending
    exact ⟨pending, numbered.level, numbered.create⟩

/-- The view of a level screen is new when it is added, that of the others not. -/
theorem enter_cases {s entered : State} {newView : View} {force : Bool} {forced : View}
    (success : s.enter newView force forced = some entered) :
    (∃ view, longLived newView = some view ∧ entered = s.addSubview view) ∨
    (longLived newView = none ∧ entered.viewOf newView = none ∧ entered = s) ∨
    (∃ view, longLived newView = none ∧ entered.viewOf newView = some view ∧
      view ∈ entered.subviews ∧ ¬ Known s.created view ∧ entered.pending = s.pending) := by
  cases newView with
  | levelPlay =>
    obtain ⟨level, _, rfl⟩ := Option.map_eq_some_iff.mp success
    exact .inr (.inr ⟨.levelView s.created, rfl, rfl, by simp [State.addSubview],
      Nat.lt_irrefl _, rfl⟩)
  | levelCreate =>
    obtain ⟨level, _, rfl⟩ := Option.map_eq_some_iff.mp success
    exact .inr (.inr ⟨.createLevelView s.created, rfl, rfl, by simp [State.addSubview],
      Nat.lt_irrefl _, rfl⟩)
  | splash | savedLevelSelect | levelBeat =>
    cases success
    exact .inr (.inl ⟨rfl, rfl, rfl⟩)
  | _ =>
    cases success
    exact .inl ⟨_, rfl, rfl⟩

/-- Serial numbers stay below the count of views created. -/
theorem enter_numbered {s entered : State} {newView : View} {force : Bool} {forced : View}
    (success : s.enter newView force forced = some entered) (numbered : Numbered s) :
    Numbered entered := by
  cases newView with
  | levelPlay =>
    obtain ⟨level, _, rfl⟩ := Option.map_eq_some_iff.mp success
    refine ⟨fun removal pending => (numbered.pending removal pending).mono, ?_,
      fun serial present => Nat.lt_succ_of_lt (numbered.create serial present)⟩
    rintro _ ⟨⟩
    exact Nat.lt_succ_self s.created
  | levelCreate =>
    obtain ⟨level, _, rfl⟩ := Option.map_eq_some_iff.mp success
    refine ⟨fun removal pending => (numbered.pending removal pending).mono,
      fun level present => Nat.lt_succ_of_lt (numbered.level level present), ?_⟩
    rintro _ ⟨⟩
    exact Nat.lt_succ_self s.created
  | _ =>
    cases success
    exact ⟨numbered.pending, numbered.level, numbered.create⟩

theorem viewOf_longLived {newView : View} {view : ScreenView} (is : longLived newView = some view)
    (s : State) : s.viewOf newView = some view := by
  cases newView <;> cases is <;> rfl

/-- Invariant of the runs that meet the condition: the view of the current
screen is there, and no pending block holds it. -/
structure Settled (s : State) : Prop where
  shown : Shown s
  kept : ∀ view, s.viewOf s.currentView = some view → ∀ removal ∈ s.pending, removal.view ≠ view
  numbered : Numbered s

/-- A screen is settled once its view is known, there, and held by no block. -/
theorem settled_of_view {s : State} {view : ScreenView} (is : s.viewOf s.currentView = some view)
    (member : view ∈ s.subviews) (kept : ∀ removal ∈ s.pending, removal.view ≠ view)
    (numbered : Numbered s) : Settled s := by
  refine ⟨?_, ?_, numbered⟩
  · intro view' is'
    cases is.symm.trans is'
    exact member
  · intro view' is'
    cases is.symm.trans is'
    exact kept

theorem switch_settled {s s' : State} {newView : View} {transitionTime : ℚ} {force : Bool}
    {forced : View} (settled : Settled s)
    (free : TargetFree s (.switchToView newView transitionTime force forced))
    (success : switchToView s newView transitionTime force forced = some s') : Settled s' := by
  obtain ⟨left, hleft, rest⟩ := Option.bind_eq_some_iff.mp success
  obtain ⟨entered, hentered, same⟩ := Option.bind_eq_some_iff.mp rest
  cases same
  have leftNumbered := leave_numbered hleft settled.numbered
  have numbered : Numbered { entered with currentView := newView } :=
    let after := enter_numbered hentered leftNumbered
    ⟨after.pending, after.level, after.create⟩
  rcases enter_cases hentered with ⟨view, long, rfl⟩ | ⟨_, noView, rfl⟩ |
    ⟨view, _, is, member, fresh, samePending⟩
  · refine settled_of_view (viewOf_longLived long _) (by simp [State.addSubview]) ?_ numbered
    intro removal pending
    obtain ⟨notCurrent, notPending⟩ := free view long
    rcases (mem_leave_pending hleft removal).mp pending with old | ⟨old, isOld, rfl⟩
    · exact notPending removal old
    · intro equal
      exact notCurrent (equal ▸ isOld)
  · have unseen : ({ entered with currentView := newView } : State).viewOf newView = none := noView
    refine ⟨?_, ?_, numbered⟩ <;> intro view is <;> cases unseen.symm.trans is
  · refine settled_of_view is member ?_ numbered
    intro removal pending equal
    have known := leftNumbered.pending removal (samePending ▸ pending)
    exact fresh (equal ▸ known)

/-- What a firing block does: it is due, and takes its view off the screen. -/
theorem fire_cases {s s' : State} {j : Nat} (success : fire s j = some s') :
    ∃ removal, s.pending[j]? = some removal ∧ removal.deadline ≤ s.now ∧
      s' = { s with pending := s.pending.eraseIdx j }.removeFromSuperview removal.view := by
  obtain ⟨removal, present, rest⟩ := Option.bind_eq_some_iff.mp success
  split at rest
  · next due =>
    cases rest
    exact ⟨removal, present, due, rfl⟩
  · cases rest

theorem fire_settled {s s' : State} {j : Nat} (settled : Settled s)
    (success : fire s j = some s') : Settled s' := by
  obtain ⟨removal, present, _, rfl⟩ := fire_cases success
  refine ⟨?_, ?_, ?_, settled.numbered.level, settled.numbered.create⟩
  · intro view is
    have other := settled.kept view is removal (List.mem_of_getElem? present)
    simp only [State.removeFromSuperview, List.mem_filter, decide_eq_true_eq]
    exact ⟨settled.shown view is, Ne.symm other⟩
  · intro view is other pending
    exact settled.kept view is other (List.mem_of_mem_eraseIdx pending)
  · intro other pending
    exact settled.numbered.pending other (List.mem_of_mem_eraseIdx pending)

theorem step_settled (s : State) (e : Event) (s' : State) (settled : Settled s)
    (free : TargetFree s e) (success : controller.step s e = some s') : Settled s' := by
  obtain ⟨shown, kept, numbered⟩ := settled
  cases e with
  | switchToView newView transitionTime force forced =>
    exact switch_settled ⟨shown, kept, numbered⟩ free success
  | chooseLevel level campaign =>
    cases success
    exact ⟨shown, kept, numbered.pending, numbered.level, numbered.create⟩
  | wait seconds =>
    simp only [controller, step] at success
    split at success
    · cases success
      exact ⟨shown, kept, numbered.pending, numbered.level, numbered.create⟩
    · cases success
  | fire j => exact fire_settled ⟨shown, kept, numbered⟩ success

theorem initial_settled : Settled State.initial := by
  refine ⟨?_, ?_, ?_, ?_, ?_⟩ <;> simp [Shown, State.initial, State.viewOf, longLived]

section Drain

/-- Once every pending block is due, they can all run. The screen stays the
same, and the views they hold are off it. -/
theorem drain (pending : List Removal) (s : State) (same : s.pending = pending)
    (due : ∀ removal ∈ pending, removal.deadline ≤ s.now) :
    ∃ t, controller.run s (List.replicate pending.length (.fire 0)) = some t ∧ t.pending = [] ∧
      t.viewOf t.currentView = s.viewOf s.currentView ∧ (∀ view ∈ t.subviews, view ∈ s.subviews) ∧
      ∀ removal ∈ pending, removal.view ∉ t.subviews := by
  induction pending generalizing s with
  | nil => exact ⟨s, rfl, same, rfl, fun _ member => member, by simp⟩
  | cons first rest ih =>
    have step : controller.step s (.fire 0) =
        some ({ s with pending := rest }.removeFromSuperview first.view) := by
      simp [controller, Source.ViewController.step, fire, same, due first (List.mem_cons_self ..)]
    obtain ⟨t, success, settled, screen, fewer, gone⟩ :=
      ih ({ s with pending := rest }.removeFromSuperview first.view) rfl
        (fun removal member => due removal (List.mem_cons_of_mem _ member))
    refine ⟨t, controller.run_cons_some.mpr ⟨_, step, success⟩, settled, screen, ?_, ?_⟩
    · intro view member
      exact (List.mem_filter.mp (fewer view member)).1
    · intro removal member
      rcases List.mem_cons.mp member with rfl | later
      · intro there
        simpa [State.removeFromSuperview] using fewer _ there
      · exact gone removal later

/-- A state with a pending block on the view of its own current screen goes
blank, by time and the pending blocks alone. -/
theorem goes_blank {s : State} {view : ScreenView} (is : s.viewOf s.currentView = some view)
    {removal : Removal} (pending : removal ∈ s.pending) (holds : removal.view = view) :
    ∃ seconds t, controller.run s (.wait seconds :: List.replicate s.pending.length (.fire 0)) =
      some t ∧ t.pending = [] ∧ ¬ Shown t := by
  obtain ⟨seconds, nonneg, due⟩ := exists_wait Removal.deadline s.pending s.now
  obtain ⟨t, success, settled, screen, _, gone⟩ :=
    drain s.pending { s with now := s.now + seconds } rfl due
  have waited : controller.step s (.wait seconds) = some { s with now := s.now + seconds } := by
    simp [controller, Source.ViewController.step, nonneg]
  refine ⟨seconds, t, controller.run_cons_some.mpr ⟨_, waited, success⟩, settled, ?_⟩
  intro shown
  exact gone removal pending (holds ▸ shown view (screen.trans is))

/-- A switch that does not meet the condition leaves such a block pending. -/
theorem switch_not_free {s s' : State} {newView : View} {transitionTime : ℚ} {force : Bool}
    {forced : View} (taken : ¬ TargetFree s (.switchToView newView transitionTime force forced))
    (success : switchToView s newView transitionTime force forced = some s') :
    ∃ view, s'.viewOf s'.currentView = some view ∧ ∃ removal ∈ s'.pending, removal.view = view := by
  obtain ⟨left, hleft, rest⟩ := Option.bind_eq_some_iff.mp success
  obtain ⟨entered, hentered, same⟩ := Option.bind_eq_some_iff.mp rest
  cases same
  simp only [TargetFree, not_forall] at taken
  obtain ⟨view, long, taken⟩ := taken
  refine ⟨view, viewOf_longLived long _, ?_⟩
  have samePending : entered.pending = left.pending := by
    rcases enter_cases hentered with ⟨_, _, rfl⟩ | ⟨_, _, rfl⟩ | ⟨_, _, _, _, _, samePending⟩
    · rfl
    · rfl
    · exact samePending
  by_cases current : s.viewOf s.currentView = some view
  · exact ⟨_, samePending ▸ (mem_leave_pending hleft _).mpr (.inr ⟨view, current, rfl⟩), rfl⟩
  · have pending : ∃ removal ∈ s.pending, removal.view = view := by
      by_contra none_pending
      exact taken ⟨current, fun removal member holds => none_pending ⟨removal, member, holds⟩⟩
    obtain ⟨removal, member, holds⟩ := pending
    exact ⟨removal, samePending ▸ (mem_leave_pending hleft removal).mpr (.inl member), holds⟩

end Drain

/-- Over every run of switches, waits and removal blocks whose switches all meet
the condition, the view of the current screen is a subview in every state
reached, settled or not. And any switch that does not meet it can be followed,
by time and the pending blocks alone, to a state with nothing pending in which
it is not. -/
theorem current_screen_shown (events : List Event) (t : State)
    (free : controller.Meets TargetFree State.initial events)
    (success : controller.run State.initial events = some t) :
    Shown t ∧
    ∀ s s' newView transitionTime force forced,
      controller.step s (.switchToView newView transitionTime force forced) = some s' →
      ¬ TargetFree s (.switchToView newView transitionTime force forced) →
      ∃ seconds u, controller.run s' (.wait seconds ::
        List.replicate s'.pending.length (.fire 0)) = some u ∧ u.pending = [] ∧ ¬ Shown u := by
  refine ⟨(controller.run_invariant_of_meets step_settled initial_settled free success).shown, ?_⟩
  intro s s' newView transitionTime force forced switched taken
  obtain ⟨view, is, removal, pending, holds⟩ := switch_not_free taken switched
  exact goes_blank is pending holds

/-- The menu, its account screen, and back once the menu has been removed. -/
def patientReturn : List Event :=
  [.switchToView .menu transitionTime false .menu, .switchToView .account transitionTime false .menu,
   .wait 1, .fire 0, .switchToView .menu transitionTime false .menu]

theorem patientReturn_shown :
    ∃ t, controller.run State.initial patientReturn = some t ∧ Shown t := by
  have success : controller.run State.initial patientReturn =
      some { State.initial with
        currentView := .menu
        subviews := [.accountView, .menuView]
        pending := [⟨.accountView, 1 + transitionTime⟩]
        now := 1 } := by
    norm_num [patientReturn, Machine.run, controller, step, switchToView, fire, State.leave, State.enter,
      longLived, State.initial, State.removeView, State.addSubview, State.removeFromSuperview,
      transitionTime]
    decide
  refine ⟨_, success, (current_screen_shown patientReturn _ ?_ success).1⟩
  norm_num [patientReturn, Machine.Meets, TargetFree, controller, step, switchToView, fire, State.leave,
    State.enter, State.viewOf, longLived, State.initial, State.removeView, State.addSubview,
    State.removeFromSuperview, transitionTime]
  decide

/-- The menu, its account screen, and back after a tenth of a second. -/
def hastyReturn : List Event :=
  [.switchToView .menu transitionTime false .menu, .switchToView .account transitionTime false .menu,
   .wait (1 / 10), .switchToView .menu transitionTime false .menu, .wait 1, .fire 0, .fire 0]

/-- Both removal blocks have run, the menu is current, and nothing is shown. -/
theorem hastyReturn_blank :
    ∃ t, controller.run State.initial hastyReturn = some t ∧ t.pending = [] ∧
      t.currentView = .menu ∧ t.subviews = [] ∧ ¬ Shown t := by
  have success : controller.run State.initial hastyReturn =
      some { State.initial with currentView := .menu, now := 11 / 10 } := by
    norm_num [hastyReturn, Machine.run, controller, step, switchToView, fire, State.leave, State.enter,
      longLived, State.initial, State.removeView, State.addSubview, State.removeFromSuperview,
      transitionTime]
  refine ⟨_, success, rfl, rfl, rfl, fun shown => ?_⟩
  cases shown .menuView rfl

end Arthius.Guarantees.CurrentScreen
