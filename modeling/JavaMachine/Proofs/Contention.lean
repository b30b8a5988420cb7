import JavaMachine.Proofs.Ledger

/-!
# Threads in contention for a monitor

A monitor is free, or one thread is inside and has to leave it as often as it has entered.  Any
number of threads may try to enter it and to exit it, in any order and also without being inside,
and a thread that has to wait tries again whenever it likes.  `Monitor.attempt` is one try.

What one try keeps is `Contest.Fair`: nobody is inside exactly when the count is zero, and what a
thread has entered and not left is what the monitor counts for it.  That holds of the free monitor,
so it holds after every schedule of tries, and that two threads are never inside is read off it.

The monitors of a machine are entered and exited by such tries.
-/

namespace JavaMachine

/-! ## Tries -/

namespace Monitor

/-- What a thread tries to do with a monitor. -/
inductive Attempt where
  /-- To enter it. -/
  | enter (t : ThreadId)
  /-- To exit it. -/
  | exit (t : ThreadId)
  deriving Repr, DecidableEq

/-- What comes of a try. -/
inductive Passage where
  /-- The thread has entered. -/
  | entered (t : ThreadId)
  /-- The thread has found another one inside, and has to try again. -/
  | waited (t : ThreadId)
  /-- The thread has given up one level. -/
  | left (t : ThreadId)
  /-- The thread was told that it is not inside. -/
  | refused (t : ThreadId)
  deriving Repr, DecidableEq

/-- One try, with what comes of it and the monitor after it. -/
def attempt (mon : Monitor) : Attempt → Passage × Monitor
  | .enter t => (mon.enter? t).elim (.waited t, mon) fun inside => (.entered t, inside)
  | .exit t => (if (mon.exit t).1 then .left t else .refused t, (mon.exit t).2)

variable {mon inside : Monitor} {t u : ThreadId}

/-- A thread has to wait when another one is inside. -/
theorem enter?_eq_none_iff : mon.enter? t = none ↔ ∃ u, u ≠ t ∧ mon.owner = some u := by
  unfold enter?
  split
  next free => simp [free]
  next owner owned =>
    by_cases same : owner = t
    · simp [owned, same]
    · simp [owned, same]

/-- A thread that enters leaves the others with what they had, which is nothing. -/
theorem enter?_entries_other (h : mon.enter? t = some inside) (other : u ≠ t) :
    inside.entries u = mon.entries u := by
  obtain ⟨free, rfl⟩ | ⟨owned, rfl⟩ := enter?_cases h
  · simp [entries, free, Ne.symm other]
  · simp [entries, owned, Ne.symm other]

/-- An exit leaves the other threads with what they had. -/
theorem exit_entries_other (other : u ≠ t) : (mon.exit t).2.entries u = mon.entries u := by
  by_cases owned : mon.owner = some t
  · rw [exit_owned owned]
    by_cases last : mon.count - 1 = 0
    · simp [entries, owned, last, free, Ne.symm other]
    · simp [entries, owned, last, Ne.symm other]
  · rw [exit_refused owned]

/-- An exit is granted to the thread inside. -/
theorem exit_fst_iff : (mon.exit t).1 = true ↔ mon.owner = some t := by
  by_cases owned : mon.owner = some t
  · simp [exit_owned owned, owned]
  · simp [exit_refused owned, owned]

/-! ## What one try keeps -/

/-- Nobody is inside exactly when the count is zero. -/
def Kept (mon : Monitor) : Prop := mon.owner = none ↔ mon.count = 0

theorem Kept.count_pos (kept : mon.Kept) (owned : mon.owner = some t) : 0 < mon.count := by
  refine Nat.pos_of_ne_zero fun zero => ?_
  rw [kept.mpr zero] at owned
  cases owned

theorem enter?_kept (h : mon.enter? t = some inside) : inside.Kept := by
  obtain ⟨-, rfl⟩ | ⟨-, rfl⟩ := enter?_cases h <;> simp [Kept]

theorem Kept.exit (kept : mon.Kept) (t : ThreadId) : (mon.exit t).2.Kept := by
  by_cases owned : mon.owner = some t
  · rw [exit_owned owned]
    by_cases last : mon.count - 1 = 0
    · simp [Kept, last, free]
    · simpa [Kept, if_neg last] using last
  · rwa [exit_refused owned]

/-- An exit that is granted takes one of the levels that are counted. -/
theorem Kept.exit_count (kept : mon.Kept) (owned : mon.owner = some t) :
    (mon.exit t).2.count + 1 = mon.count := by
  have counted := kept.count_pos owned
  rw [exit_owned owned]
  by_cases last : mon.count - 1 = 0
  · simp only [if_pos last, free]
    omega
  · simp only [if_neg last]
    omega

theorem Kept.attempt (kept : mon.Kept) (a : Attempt) : (mon.attempt a).2.Kept := by
  cases a with
  | enter t =>
      cases entered : mon.enter? t with
      | none => simpa [Monitor.attempt, entered] using kept
      | some inside => simpa [Monitor.attempt, entered] using enter?_kept entered
  | exit t => exact kept.exit t

/-- What a monitor counts for a thread changes by what the thread has done. -/
theorem Kept.attempt_entries (kept : mon.Kept) (a : Attempt) (u : ThreadId) :
    (mon.attempt a).2.entries u + [(mon.attempt a).1].count (.left u) =
      mon.entries u + [(mon.attempt a).1].count (.entered u) := by
  cases a with
  | enter t =>
      cases entered : mon.enter? t with
      | none => simp [Monitor.attempt, entered]
      | some inside =>
          by_cases own : u = t
          · subst own
            simpa [Monitor.attempt, entered] using (enter?_entries entered).1
          · simpa [Monitor.attempt, entered, Ne.symm own] using enter?_entries_other entered own
  | exit t =>
      by_cases owned : mon.owner = some t
      · have granted : (mon.exit t).1 = true := exit_fst_iff.mpr owned
        by_cases own : u = t
        · subst own
          have less := exit_entries mon u
          have counted : 0 < mon.entries u := by
            rw [entries, if_pos owned]
            exact kept.count_pos owned
          have deed : mon.attempt (.exit u) = (.left u, (mon.exit u).2) := by
            simp [Monitor.attempt, granted]
          simp [deed, less]
          omega
        · simpa [Monitor.attempt, granted, Ne.symm own] using exit_entries_other own
      · simp [Monitor.attempt, exit_refused owned]

end Monitor

/-! ## Schedules -/

/-- A monitor and what the threads have done with it. -/
structure Contest where
  /-- The monitor. -/
  monitor : Monitor := .free
  /-- What came of the tries so far, oldest first. -/
  passages : List Monitor.Passage := []

namespace Contest

/-- One try more. -/
def next (c : Contest) (a : Monitor.Attempt) : Contest :=
  ⟨(c.monitor.attempt a).2, c.passages ++ [(c.monitor.attempt a).1]⟩

/-- What has become of a free monitor after tries in some order. -/
def play (schedule : List Monitor.Attempt) : Contest := schedule.foldl next {}

/-- The number of times a thread has entered. -/
def enters (c : Contest) (t : ThreadId) : Nat := c.passages.count (.entered t)

/-- The number of times a thread has left. -/
def exits (c : Contest) (t : ThreadId) : Nat := c.passages.count (.left t)

/-- The monitor is free when it counts nothing, and it counts for each thread what the thread has
entered and not left. -/
structure Fair (c : Contest) : Prop where
  /-- Nobody is inside exactly when the count is zero. -/
  kept : c.monitor.Kept
  /-- Each thread has entered as often as it has left and still has to leave. -/
  balance : ∀ t, c.enters t = c.exits t + c.monitor.entries t

/-- One try keeps the account. -/
theorem Fair.next {c : Contest} (fair : c.Fair) (a : Monitor.Attempt) : (c.next a).Fair where
  kept := fair.kept.attempt a
  balance t := by
    have before := fair.balance t
    have change := fair.kept.attempt_entries a t
    simp only [enters, exits, Contest.next, List.count_append] at before ⊢
    omega

/-- A thread that is not inside has left as often as it has entered. -/
theorem Fair.outside {c : Contest} {t : ThreadId} (fair : c.Fair)
    (outside : c.monitor.owner ≠ some t) : c.enters t = c.exits t := by
  have balance := fair.balance t
  rwa [Monitor.entries, if_neg outside] at balance

/-- A thread that still has to leave is the one inside. -/
theorem Fair.owner_of_lt {c : Contest} {t : ThreadId} (fair : c.Fair)
    (within : c.exits t < c.enters t) : c.monitor.owner = some t := by
  by_contra outside
  exact absurd (fair.outside outside) (Nat.ne_of_gt within)

/-- The account is kept by every schedule. -/
theorem play_fair (schedule : List Monitor.Attempt) : (play schedule).Fair := by
  have run {c : Contest} (fair : c.Fair) : (schedule.foldl Contest.next c).Fair := by
    induction schedule generalizing c with
    | nil => exact fair
    | cons a rest ih => exact ih (fair.next a)
  exact run ⟨⟨fun _ => rfl, fun _ => rfl⟩, fun _ => rfl⟩

end Contest

/-! ## The monitors of a machine -/

/-- The machine with another monitor in the place of one. -/
def Machine.withMonitor (m : Machine) (k : MonitorKey) (mon : Monitor) : Machine :=
  { m with world := { m.world with monitors := m.world.monitors.set k mon } }

/-- Only that monitor is another one. -/
theorem Machine.get_withMonitor (m : Machine) (k k' : MonitorKey) (mon : Monitor) :
    (m.withMonitor k mon).world.monitors.get k' =
      if k' = k then mon else m.world.monitors.get k' :=
  Monitors.get_set _ k k' mon

namespace Exec

variable (s : Settings) (m : Machine) (k : MonitorKey)

/-- To enter a monitor of a machine is a try of its thread, and it stops where the thread has to
wait. -/
theorem enterMonitor_attempt :
    let t := m.thread.id
    let entering := (m.world.monitors.get k).attempt (.enter t)
    enterMonitor k s m =
      if entering.1 = .entered t then .ok () (m.withMonitor k entering.2)
      else .error .blocked m := by
  intro t entering
  unfold enterMonitor
  rw [bind_of_ok (x := get) (s := s) (m := m) rfl]
  cases entered : (m.world.monitors.get k).enter? t with
  | none =>
      have waits : entering = (.waited t, m.world.monitors.get k) := by
        simp only [entering, Monitor.attempt, entered, Option.elim_none]
      rw [waits, if_neg Monitor.Passage.noConfusion]
      rfl
  | some inside =>
      have enters : entering = (.entered t, inside) := by
        simp only [entering, Monitor.attempt, entered, Option.elim_some]
      rw [enters, if_pos rfl]
      rfl

/-- To exit a monitor of a machine is a try of its thread, and it answers whether that was
granted. -/
theorem exitMonitor_attempt :
    let t := m.thread.id
    let exiting := (m.world.monitors.get k).attempt (.exit t)
    exitMonitor k s m = .ok (exiting.1 = .left t) (m.withMonitor k exiting.2) := by
  intro t exiting
  have answer : decide (exiting.1 = .left t) = ((m.world.monitors.get k).exit t).1 := by
    simp only [exiting, Monitor.attempt]
    cases ((m.world.monitors.get k).exit t).1 <;> simp
  rw [answer]
  exact exitMonitor_run k

end Exec

namespace Contest

/-- A monitor lets one thread in at a time, and that one as often as it likes.  Whatever any number
of threads have tried so far, nobody is inside exactly when the count is zero.  The thread inside
has entered as often as it has left and the monitor counts, which is at least once more, and every
other thread has left as often as it has entered.  A thread waits exactly when another one is
inside.  An exit is granted exactly to the thread inside and takes one from the count, and if it is
refused nothing changes.  The monitors of a machine are entered and exited by such tries of its
thread, and each of them on its own. -/
theorem exclusive :
    (∀ schedule : List Monitor.Attempt, let c := play schedule
      (c.monitor.owner = none ↔ c.monitor.count = 0) ∧
      (c.monitor.owner = none → ∀ t, c.enters t = c.exits t) ∧
      (∀ t, c.monitor.owner = some t → c.enters t = c.exits t + c.monitor.count ∧
        0 < c.monitor.count ∧ ∀ u, u ≠ t → c.enters u = c.exits u) ∧
      (∀ t u, c.exits t < c.enters t → c.exits u < c.enters u → t = u) ∧
      ∀ t, (c.monitor.enter? t = none ↔ ∃ u, u ≠ t ∧ c.monitor.owner = some u) ∧
        ((c.monitor.exit t).1 = true ↔ c.monitor.owner = some t) ∧
        ((c.monitor.exit t).1 = true → (c.monitor.exit t).2.count + 1 = c.monitor.count) ∧
        ((c.monitor.exit t).1 = false → (c.monitor.exit t).2 = c.monitor)) ∧
    ∀ (s : Settings) (m : Machine) (k : MonitorKey),
      let t := m.thread.id
      let entering := (m.world.monitors.get k).attempt (.enter t)
      let exiting := (m.world.monitors.get k).attempt (.exit t)
      Exec.enterMonitor k s m =
        (if entering.1 = .entered t then .ok () (m.withMonitor k entering.2)
        else .error .blocked m) ∧
      Exec.exitMonitor k s m = .ok (exiting.1 = .left t) (m.withMonitor k exiting.2) ∧
      ∀ k' mon, (m.withMonitor k mon).world.monitors.get k' =
        if k' = k then mon else m.world.monitors.get k' := by
  refine ⟨fun schedule => ?_, fun s m k => ⟨Exec.enterMonitor_attempt s m k,
    Exec.exitMonitor_attempt s m k, m.get_withMonitor k⟩⟩
  intro c
  have fair : c.Fair := play_fair schedule
  refine ⟨fair.kept, fun idle t => fair.outside (by simp [idle]), fun t inside =>
    ⟨?_, fair.kept.count_pos inside, fun u other => fair.outside (by simp [inside, other.symm])⟩,
    fun t u within within' => ?_, fun t => ⟨Monitor.enter?_eq_none_iff, Monitor.exit_fst_iff,
    fun granted => fair.kept.exit_count (Monitor.exit_fst_iff.mp granted), fun refused => ?_⟩⟩
  · have balance := fair.balance t
    rwa [Monitor.entries, if_pos inside] at balance
  · have first := fair.owner_of_lt within
    have second := fair.owner_of_lt within'
    exact Option.some.inj (first.symm.trans second)
  · have outside : c.monitor.owner ≠ some t := fun inside => by
      rw [Monitor.exit_fst_iff.mpr inside] at refused
      cases refused
    rw [Monitor.exit_refused outside]

example : (play [.enter 1, .enter 1, .enter 2, .exit 2, .exit 1, .exit 1, .enter 2]).passages =
    [.entered 1, .entered 1, .waited 2, .refused 2, .left 1, .left 1, .entered 2] := by
  decide

end Contest

end JavaMachine
