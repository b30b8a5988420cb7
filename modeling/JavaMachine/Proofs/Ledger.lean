import JavaMachine.Proofs.Steps

/-!
# The account of the monitors

A thread that has entered a monitor has to exit it as often.  How often is kept in the monitor, but
who has to do it is kept in the frames, each of which has a list of the monitors it has entered.
The two can drift apart: an instruction may exit a monitor that its frame has not entered, and then
the frame that has entered it finds nothing left to exit.

`Machine.Accounts` compares two machines by what has to be exited in each of them.  However many
entries the thread has beyond the first list of monitors, it has at most as many beyond the second
one later, and exactly as many if no frame has exited a monitor of another one.  `Machine.Ledger`
is this comparison for the frames on top of a given number of others.  It is kept by whatever a
frame does, and by leaving it.
-/

namespace JavaMachine

/-! ## One monitor -/

namespace Monitor

/-- The number of times a thread has to exit a monitor. -/
def entries (mon : Monitor) (t : ThreadId) : Nat := if mon.owner = some t then mon.count else 0

/-- A thread that owns a monitor has to exit it. -/
def Sound (mon : Monitor) (t : ThreadId) : Prop := mon.owner = some t → 0 < mon.count

variable {mon mon' : Monitor} {t u : ThreadId}

theorem isOwnedBy_iff : mon.isOwnedBy t = true ↔ mon.owner = some t := beq_iff_eq

/-- A thread enters a free monitor, or once more one that it is inside already. -/
theorem enter?_cases (h : mon.enter? t = some mon') :
    mon.owner = none ∧ mon' = ⟨some t, 1⟩ ∨
      mon.owner = some t ∧ mon' = ⟨some t, mon.count + 1⟩ := by
  unfold enter? at h
  split at h
  next free =>
    cases h
    exact .inl ⟨free, rfl⟩
  next owner owned =>
    split at h
    next same =>
      subst same
      cases h
      exact .inr ⟨owned, rfl⟩
    next => cases h

theorem enter?_entries (h : mon.enter? t = some mon') :
    mon'.entries t = mon.entries t + 1 ∧ mon'.Sound t := by
  obtain ⟨free, rfl⟩ | ⟨owned, rfl⟩ := enter?_cases h
  · simp [entries, Sound, free]
  · simp [entries, Sound, owned]

/-- The thread inside gives up one level. -/
theorem exit_owned (owned : mon.owner = some t) : mon.exit t =
    (true, if mon.count - 1 = 0 then free else ⟨some t, mon.count - 1⟩) := by
  rw [exit, if_pos (isOwnedBy_iff.mpr owned), owned]

/-- An exit that is refused changes nothing. -/
theorem exit_refused (outside : mon.owner ≠ some t) : mon.exit t = (false, mon) := by
  rw [exit, if_neg (mt isOwnedBy_iff.mp outside)]

theorem exit_entries (mon : Monitor) (t : ThreadId) :
    (mon.exit t).2.entries t = mon.entries t - 1 := by
  by_cases owned : mon.owner = some t
  · rw [exit_owned owned]
    by_cases last : mon.count - 1 = 0
    · simp [entries, owned, last, free]
    · simp [entries, owned, last]
  · rw [exit_refused owned]
    simp [entries, owned]

theorem exit_sound (h : mon.Sound t) : (mon.exit t).2.Sound t := by
  by_cases owned : mon.owner = some t
  · rw [exit_owned owned]
    by_cases last : mon.count - 1 = 0
    · simp [Sound, last, free]
    · simp only [if_neg last]
      exact fun _ => Nat.pos_of_ne_zero last
  · rwa [exit_refused owned]

/-- A thread without entries does not own a monitor. -/
theorem Sound.free_of_entries (h : mon.Sound t)
    (none : mon.entries t = 0) : mon.isOwnedBy t = false := by
  by_cases owned : mon.owner = some t
  · rw [entries, if_pos owned] at none
    exact absurd (h owned) (by omega)
  · simpa [isOwnedBy] using owned

end Monitor

/-! ## All monitors -/

namespace Monitors

theorem get_set (ms : Monitors) (k k' : MonitorKey) (mon : Monitor) :
    (ms.set k mon).get k' = if k' = k then mon else ms.get k' := by
  unfold get set
  by_cases same : k' = k
  · subst same
    simp
  · have missed : ((k, mon) :: ms.touched.filter (·.1 != k)).lookup k' =
        (ms.touched.filter (·.1 != k)).lookup k' := by
      rw [List.lookup_cons, beq_false_of_ne same]
    rw [missed, if_neg same]
    congr 1
    clear missed
    induction ms.touched with
    | nil => rfl
    | cons row rest ih =>
        obtain ⟨key, held⟩ := row
        by_cases dropped : key = k
        · subst dropped
          simpa [List.lookup_cons, beq_false_of_ne same] using ih
        · rw [List.filter_cons_of_pos (by simpa using dropped), List.lookup_cons,
            List.lookup_cons, ih]

/-- The number of times a thread has to exit the monitor of a key. -/
def entries (ms : Monitors) (t : ThreadId) (k : MonitorKey) : Nat := (ms.get k).entries t

/-- A thread has to exit every monitor that it owns. -/
def Sound (ms : Monitors) (t : ThreadId) : Prop := ∀ k, (ms.get k).Sound t

variable {ms : Monitors} {t : ThreadId}

theorem entries_enter {k : MonitorKey} {mon : Monitor} (h : (ms.get k).enter? t = some mon)
    (k' : MonitorKey) : (ms.set k mon).entries t k' = ms.entries t k' + [k].count k' := by
  unfold entries
  rw [get_set]
  by_cases same : k' = k
  · subst same
    simpa using (Monitor.enter?_entries h).1
  · simp [same, Ne.symm same]

theorem sound_enter {k : MonitorKey} {mon : Monitor} (h : (ms.get k).enter? t = some mon)
    (sound : ms.Sound t) : (ms.set k mon).Sound t := by
  intro k'
  rw [get_set]
  split
  · exact (Monitor.enter?_entries h).2
  · exact sound k'

theorem entries_exitAll (keys : List MonitorKey) (k : MonitorKey) :
    (ms.exitAll t keys).entries t k = ms.entries t k - keys.count k := by
  induction keys generalizing ms with
  | nil => rfl
  | cons key keys ih =>
      have first : (ms.set key ((ms.get key).exit t).2).entries t k =
          ms.entries t k - [key].count k := by
        unfold entries
        rw [get_set]
        by_cases same : k = key
        · subst same
          simpa using Monitor.exit_entries (ms.get k) t
        · simp [same, Ne.symm same]
      have rest : (ms.exitAll t (key :: keys)).entries t k =
          (ms.set key ((ms.get key).exit t).2).entries t k - keys.count k := ih
      rw [rest, first, Nat.sub_sub, ← List.count_append, List.singleton_append]

theorem sound_exitAll (keys : List MonitorKey) (sound : ms.Sound t) :
    (ms.exitAll t keys).Sound t := by
  induction keys generalizing ms with
  | nil => exact sound
  | cons key keys ih =>
      refine ih fun k => ?_
      rw [get_set]
      split
      · exact Monitor.exit_sound (sound key)
      · exact sound k

end Monitors

/-! ## What two machines have to exit -/

namespace Machine

/-- The number of times the thread has to exit the monitor of a key. -/
def entries (m : Machine) (k : MonitorKey) : Nat := m.world.monitors.entries m.thread.id k

/-- Between two machines the thread has entered and exited monitors, so that it has to exit some of
them in the first machine and others in the second one. -/
structure Accounts (keys keys' : List MonitorKey) (m m' : Machine) : Prop where
  /-- The thread is the same one. -/
  id : m'.thread.id = m.thread.id
  /-- Exits of monitors that a frame has not entered are counted. -/
  strays : m.thread.strays ≤ m'.thread.strays
  /-- Beyond those monitors, the thread has no more entries than before. -/
  bound : ∀ k b, m.entries k ≤ b + keys.count k → m'.entries k ≤ b + keys'.count k
  /-- It has as many as before, if every frame has exited its own monitors only. -/
  exact : m'.thread.strays = m.thread.strays → ∀ k b, m.entries k = b + keys.count k →
    m'.entries k = b + keys'.count k
  /-- The thread has to exit every monitor that it owns. -/
  sound : m.world.monitors.Sound m.thread.id → m'.world.monitors.Sound m.thread.id

namespace Accounts

variable {keys keys' keys'' : List MonitorKey} {m m' m'' : Machine}

/-- No monitor is entered or exited. -/
theorem of_same (id : m'.thread.id = m.thread.id) (strays : m'.thread.strays = m.thread.strays)
    (monitors : m'.world.monitors = m.world.monitors) : m.Accounts keys keys m' where
  id := id
  strays := Nat.le_of_eq strays.symm
  bound k b h := by rwa [entries, monitors, id]
  exact _ k b h := by rwa [entries, monitors, id]
  sound h := by rwa [monitors]

theorem trans (first : m.Accounts keys keys' m') (second : m'.Accounts keys' keys'' m'') :
    m.Accounts keys keys'' m'' where
  id := second.id.trans first.id
  strays := Nat.le_trans first.strays second.strays
  bound k b h := second.bound k b (first.bound k b h)
  exact none k b h := by
    have before := first.strays
    have after := second.strays
    exact second.exact (by omega) k b (first.exact (by omega) k b h)
  sound h := by
    have sound := second.sound (by rw [first.id]; exact first.sound h)
    rwa [first.id] at sound

/-- Some monitors more have to be exited in both machines. -/
theorem more (h : m.Accounts keys keys' m') (extra : List MonitorKey) :
    m.Accounts (extra ++ keys) (extra ++ keys') m' where
  id := h.id
  strays := h.strays
  bound k b le := by
    have after := h.bound k (b + extra.count k)
    rw [List.count_append] at le ⊢
    omega
  exact none k b eq := by
    have after := h.exact none k (b + extra.count k)
    rw [List.count_append] at eq ⊢
    omega
  sound := h.sound

/-- A monitor is entered. -/
theorem enter {k : MonitorKey} {mon : Monitor}
    (entered : (m.world.monitors.get k).enter? m.thread.id = some mon)
    (id : m'.thread.id = m.thread.id) (strays : m'.thread.strays = m.thread.strays)
    (monitors : m'.world.monitors = m.world.monitors.set k mon) :
    m.Accounts keys (k :: keys) m' := by
  have more (k' : MonitorKey) : m'.entries k' = m.entries k' + [k].count k' := by
    rw [entries, id, monitors]
    exact Monitors.entries_enter entered k'
  refine ⟨id, Nat.le_of_eq strays.symm, fun k' b h => ?_, fun _ k' b h => ?_, fun h => ?_⟩
  · rw [more, show k :: keys = [k] ++ keys from rfl, List.count_append]
    omega
  · rw [more, show k :: keys = [k] ++ keys from rfl, List.count_append]
    omega
  · rw [monitors]
    exact Monitors.sound_enter entered h

/-- Monitors are exited that had to be. -/
theorem exits (left : List MonitorKey) (id : m'.thread.id = m.thread.id)
    (strays : m'.thread.strays = m.thread.strays)
    (monitors : m'.world.monitors = m.world.monitors.exitAll m.thread.id left)
    (counts : ∀ k, keys.count k = left.count k + keys'.count k) : m.Accounts keys keys' m' := by
  have less (k : MonitorKey) : m'.entries k = m.entries k - left.count k := by
    rw [entries, id, monitors]
    exact Monitors.entries_exitAll left k
  refine ⟨id, Nat.le_of_eq strays.symm, fun k b h => ?_, fun _ k b h => ?_, fun h => ?_⟩
  · rw [less]
    rw [counts] at h
    omega
  · rw [less]
    rw [counts] at h
    omega
  · rw [monitors]
    exact Monitors.sound_exitAll left h

/-- Monitors are exited that need not have been, and this is counted. -/
theorem stray (left : List MonitorKey) (id : m'.thread.id = m.thread.id)
    (strays : m.thread.strays < m'.thread.strays)
    (monitors : m'.world.monitors = m.world.monitors.exitAll m.thread.id left) :
    m.Accounts keys keys m' := by
  refine ⟨id, Nat.le_of_lt strays, fun k b h => ?_, fun none => absurd none (by omega), fun h => ?_⟩
  · have less : m'.entries k = m.entries k - left.count k := by
      rw [entries, id, monitors]
      exact Monitors.entries_exitAll left k
    omega
  · rw [monitors]
    exact Monitors.sound_exitAll left h

end Accounts

/-! ## The frames on top of others -/

/-- The monitors that the frames on top of the lowest ones, so many of them, have to exit. -/
def owed (height : Nat) (m : Machine) : List MonitorKey :=
  (m.held.take (m.held.length - height)).flatten

theorem owed_of_cons {height : Nat} {m : Machine} {keys : List MonitorKey}
    {rest : List (List MonitorKey)} (held : m.held = keys :: rest) (le : height ≤ rest.length) :
    m.owed height = keys ++ (rest.take (rest.length - height)).flatten := by
  rw [owed, held, List.length_cons, Nat.succ_sub le, List.take_succ_cons, List.flatten_cons]

theorem owed_of_le {height : Nat} {m : Machine} (le : m.frames.length ≤ height) :
    m.owed height = [] := by
  rw [owed, List.length_map, Nat.sub_eq_zero_of_le le, List.take_zero, List.flatten_nil]

/-- Between two machines the frames on top of the lowest ones, so many of them, account for the
monitors. -/
def Ledger (height : Nat) (m m' : Machine) : Prop := m.Accounts (m.owed height) (m'.owed height) m'

theorem Ledger.trans {height : Nat} {m m' m'' : Machine} (first : m.Ledger height m')
    (second : m'.Ledger height m'') : m.Ledger height m'' := Accounts.trans first second

/-- Between two machines the thread has entered and exited no monitor. -/
structure SameMonitors (m m' : Machine) : Prop where
  /-- The thread is the same one. -/
  id : m'.thread.id = m.thread.id
  /-- No monitor was exited that its frame had not entered. -/
  strays : m'.thread.strays = m.thread.strays
  /-- The monitors are the same. -/
  monitors : m'.world.monitors = m.world.monitors

instance : AllowsWorld SameMonitors where
  refl _ := ⟨rfl, rfl, rfl⟩
  trans _ _ _ first second :=
    ⟨second.id.trans first.id, second.strays.trans first.strays,
      second.monitors.trans first.monitors⟩
  world stirs := ⟨rfl, rfl, stirs.monitors⟩

/-- Between two machines the thread has entered and exited no monitor, and its frames hold what they
held. -/
structure SameHeldMonitors (m m' : Machine) : Prop extends SameMonitors m m' where
  /-- The frames hold the same monitors. -/
  held : m'.held = m.held

instance : AllowsFrame SameHeldMonitors where
  refl m := ⟨Std.Refl.refl m, rfl⟩
  trans _ _ _ first second :=
    ⟨IsTrans.trans _ _ _ first.toSameMonitors second.toSameMonitors, second.held.trans first.held⟩
  world stirs := ⟨AllowsWorld.world stirs, rfl⟩
  operands _ _ := ⟨⟨rfl, rfl, rfl⟩, rfl⟩
  frame current onward _ _ :=
    { toSameMonitors := ⟨rfl, rfl, rfl⟩
      held := by
        simp only [Machine.held, Machine.frames, Thread.setFrame, current, List.tail_cons,
          List.map_cons, onward.monitors] }

theorem SameHeldMonitors.length_eq {m m' : Machine} (h : m.SameHeldMonitors m') :
    m'.frames.length = m.frames.length := by
  have same := congrArg List.length h.held
  rwa [List.length_map, List.length_map] at same

theorem SameHeldMonitors.ledger {m m' : Machine} (h : m.SameHeldMonitors m') (height : Nat) :
    m.Ledger height m' := by
  have same : m'.owed height = m.owed height := by rw [owed, owed, h.held]
  rw [Ledger, same]
  exact .of_same h.id h.strays h.monitors

theorem WithinSameMonitors.sameHeldMonitors {m m' : Machine} (h : m.WithinSameMonitors m') :
    m.SameHeldMonitors m' :=
  ⟨⟨h.id, h.strays, h.world.monitors⟩, h.held⟩

theorem SameFramesMonitors.sameHeldMonitors {m m' : Machine} (h : m.SameFramesMonitors m') :
    m.SameHeldMonitors m' :=
  ⟨⟨h.id, h.strays, h.monitors⟩, congrArg (List.map Frame.monitors) h.frames_eq⟩

/-- What the current frame does with its own monitors is accounted for. -/
theorem ledger_of_current {height : Nat} {m m' : Machine} {f f' : Frame} {rest : List Frame}
    (current : m.thread.frames = f :: rest) (current' : m'.thread.frames = f' :: rest)
    (lt : height < m.frames.length)
    (h : ∀ keys, m.Accounts (f.monitors ++ keys) (f'.monitors ++ keys) m') :
    m.Ledger height m' := by
  have le : height ≤ (rest.map Frame.monitors).length := by
    rw [Machine.frames, current, List.length_cons] at lt
    rw [List.length_map]
    omega
  have held : m.held = f.monitors :: rest.map Frame.monitors := by
    rw [Machine.held, Machine.frames, current, List.map_cons]
  have held' : m'.held = f'.monitors :: rest.map Frame.monitors := by
    rw [Machine.held, Machine.frames, current', List.map_cons]
  rw [Ledger, owed_of_cons held le, owed_of_cons held' le]
  exact h _

/-- Leaving the current frame exits what it holds. -/
theorem without_ledger {height : Nat} {m : Machine} {f : Frame} {rest : List Frame}
    (current : m.thread.frames = f :: rest) (lt : height < m.frames.length) (depths : List Nat)
    (events : Array Event) : m.Ledger height (m.without [f] depths events) := by
  have le : height ≤ (rest.map Frame.monitors).length := by
    rw [Machine.frames, current, List.length_cons] at lt
    rw [List.length_map]
    omega
  have held : m.held = f.monitors :: rest.map Frame.monitors := by
    rw [Machine.held, Machine.frames, current, List.map_cons]
  have held' : (m.without [f] depths events).held = rest.map Frame.monitors := by
    simp only [Machine.held, Machine.frames, without, current, List.length_singleton, List.drop_one,
      List.tail_cons]
  rw [Ledger, owed_of_cons held le]
  refine .exits ([f].flatMap Frame.monitors) rfl rfl rfl fun k => ?_
  rw [owed, held', List.flatMap_cons, List.flatMap_nil, List.append_nil, List.count_append]

end Machine

namespace Exec

variable {s : Settings} {m m' : Machine} {height : Nat}

/-! ## Entering and exiting a monitor -/

theorem enterMonitor_ok {k : MonitorKey} (h : enterMonitor k s m = .ok () m') :
    ∃ mon, (m.world.monitors.get k).enter? m.thread.id = some mon ∧
      m' = { m with world := { m.world with monitors := m.world.monitors.set k mon } } := by
  unfold enterMonitor at h
  rw [bind_of_ok (x := get) (s := s) (m := m) rfl] at h
  cases entered : (m.world.monitors.get k).enter? m.thread.id with
  | none => simp only [entered] at h; cases h
  | some mon =>
      simp only [entered] at h
      cases h
      exact ⟨mon, rfl, rfl⟩

theorem exitMonitor_run (k : MonitorKey) : exitMonitor k s m =
    .ok ((m.world.monitors.get k).exit m.thread.id).1
      { m with world :=
          { m.world with monitors := m.world.monitors.exitAll m.thread.id [k] } } := rfl

/-- A monitor that is entered for the current frame has to be exited by it. -/
theorem pushMonitor_ledger {k : MonitorKey} (h : pushMonitor k s m = .ok () m')
    (lt : height < m.frames.length) :
    m.Ledger height m' ∧ m'.frames.length = m.frames.length := by
  cases current : m.thread.frames with
  | nil =>
      rw [Machine.frames, current] at lt
      cases lt
  | cons f rest =>
      rw [pushMonitor, bind_of_ok (frame_of_cons current)] at h
      obtain ⟨_, mid, locks, h⟩ := bind_eq_ok h
      obtain ⟨mon, entered, rfl⟩ := enterMonitor_ok locks
      let locked : Machine :=
        { m with world := { m.world with monitors := m.world.monitors.set k mon } }
      have listed : moveFrame (fun f => .ok { f with monitors := k :: f.monitors }) s locked =
          .ok () { locked with thread := { locked.thread with
            frames := { f with monitors := k :: f.monitors } :: rest } } :=
        moveFrame_of_ok current rfl
      have same := h.symm.trans listed
      cases same
      refine ⟨Machine.ledger_of_current current rfl lt fun keys => .enter entered rfl rfl rfl, ?_⟩
      simp [Machine.frames, current]

/-- Exiting a monitor accounts for it: the current frame had to exit it, or this is counted. -/
theorem popMonitor_ledger {k : MonitorKey} {mid : Machine} {owned : Bool}
    (counted : countStray k s m = .ok () mid) (h : popMonitor k s mid = .ok owned m')
    (lt : height < m.frames.length) :
    m.Ledger height m' ∧ m'.frames.length = m.frames.length := by
  cases current : m.thread.frames with
  | nil =>
      rw [Machine.frames, current] at lt
      cases lt
  | cons f rest =>
      have run : countStray k s m = .ok () { m with thread := { m.thread with
          strays := if k ∈ f.monitors then m.thread.strays else m.thread.strays + 1 } } := by
        have listed :
            m.thread.frames.head?.any (·.monitors.contains k) = f.monitors.contains k := by
          rw [current, List.head?_cons, Option.any_some]
        simp only [countStray, modifyThread_run, listed, List.contains_iff_mem]
        split
        · rfl
        · rfl
      have same := counted.symm.trans run
      cases same
      let noted : Machine := { m with thread := { m.thread with
          strays := if k ∈ f.monitors then m.thread.strays else m.thread.strays + 1 } }
      let struck : Machine := { noted with thread := { noted.thread with
          frames := { f with monitors := f.monitors.erase k } :: rest } }
      have erased : moveFrame (fun f => .ok { f with monitors := f.monitors.erase k }) s noted =
          .ok () struck := moveFrame_of_ok current rfl
      rw [popMonitor, bind_of_ok erased, exitMonitor_run] at h
      cases h
      refine ⟨Machine.ledger_of_current current rfl lt fun keys => ?_, by
        simp [struck, Machine.frames, current]⟩
      by_cases own : k ∈ f.monitors
      · refine .exits [k] rfl (if_pos own) rfl fun k' => ?_
        rw [List.count_append, List.count_append, List.count_erase, List.count_singleton]
        by_cases same : k = k'
        · subst same
          have some := List.count_pos_iff.mpr own
          simp
          omega
        · simp [same]
      · have same : f.monitors.erase k = f.monitors := List.erase_of_not_mem own
        dsimp only
        rw [same]
        refine .stray [k] rfl ?_ rfl
        show m.thread.strays < if k ∈ f.monitors then _ else _
        rw [if_neg own]
        exact Nat.lt_succ_self _

/-! ## Entering and leaving a frame -/

theorem pushFrame_sameMonitors (cls : LoadedClass) (decl : MethodDecl) :
    Keeps Machine.SameMonitors (pushFrame cls decl) := by
  unfold pushFrame
  refine thread_keeps.bind fun t => ?_
  split
  · exact .fail _
  · refine Keeps.bind (fun _ _ => ⟨rfl, rfl, rfl⟩) fun _ => ?_
    refine Keeps.bind (.ofExcept _) fun locals => ?_
    exact (report_keeps _).bind fun _ => fun _ _ => ⟨rfl, rfl, rfl⟩

/-- A frame that is entered has to exit the monitor that it was given. -/
theorem enterFrame_ledger {cls : LoadedClass} {decl : MethodDecl} {monitor : Option MonitorKey}
    (h : enterFrame cls decl monitor s m = .ok () m') (le : height ≤ m.frames.length) :
    m.Ledger height m' ∧ m'.frames.length = m.frames.length + 1 := by
  obtain ⟨_, top, pushed, h⟩ := bind_eq_ok h
  obtain ⟨f, mid, sameFrames, -, pushes, -, free, -⟩ := pushFrame_ok pushed
  have sameMonitors : m.SameMonitors top := (pushFrame_sameMonitors cls decl).of_ok pushed
  have frames : top.frames = f :: m.frames := by rw [pushes.frames, sameFrames.frames_eq]
  have length : top.frames.length = m.frames.length + 1 := by rw [frames, List.length_cons]
  have first : m.Ledger height top := by
    have held : top.held = [] :: m.held := by rw [Machine.held, frames, List.map_cons, free]
    rw [Machine.Ledger, Machine.owed_of_cons held (by rwa [List.length_map]), List.nil_append]
    exact .of_same sameMonitors.id sameMonitors.strays sameMonitors.monitors
  obtain ⟨_, locked, entered, h⟩ := bind_eq_ok h
  have second : top.Ledger height locked ∧ locked.frames.length = top.frames.length := by
    cases monitor with
    | none =>
        cases entered
        exact ⟨(Std.Refl.refl top : top.SameHeldMonitors top).ledger height, rfl⟩
    | some k => exact pushMonitor_ledger entered (by omega)
  have counted : Keeps Machine.SameHeldMonitors (discard (onThread Thread.deepen)) := by
    refine Keeps.discard (onThread_keeps fun m n t h => ?_)
    unfold Thread.deepen at h
    split at h
    · cases h
      exact ⟨⟨rfl, rfl, rfl⟩, rfl⟩
    · cases h
  have third : locked.SameHeldMonitors m' := counted.of_ok h
  refine ⟨(first.trans second.1).trans (third.ledger height), ?_⟩
  rw [third.length_eq, second.2, length]

theorem leaveDepth_sameHeldMonitors : Keeps Machine.SameHeldMonitors leaveDepth := by
  refine onThread_keeps fun m n t h => ?_
  unfold Thread.shallow at h
  split at h
  · cases h
    exact ⟨⟨rfl, rfl, rfl⟩, rfl⟩
  · cases h
  · cases h

/-- A frame that is left by a return has exited its monitors. -/
theorem leave_ledger {v : Option Value} {flow : Flow} (h : leave v s m = .ok flow m')
    (lt : height < m.frames.length) : m.Ledger height m' := by
  cases current : m.thread.frames with
  | nil =>
      rw [Machine.frames, current] at lt
      cases lt
  | cons f rest =>
      obtain ⟨events, popped⟩ := popFrame_run (s := s) current
      rw [leave, bind_of_ok (discard_of_ok popped)] at h
      have rest : Keeps Machine.SameHeldMonitors (do
          v.forM hand
          if (← leaveDepth) = 0 then return .leave else return .next : Exec Flow) := by
        have handing (v : Value) : Keeps Machine.SameHeldMonitors (hand v) :=
          fun _ _ => ⟨⟨rfl, rfl, rfl⟩, rfl⟩
        refine Keeps.bind (.forM_option handing v)
          fun _ => leaveDepth_sameHeldMonitors.bind fun n => ?_
        split
        · exact .pure _
        · exact .pure _
      exact (Machine.without_ledger current lt _ events).trans ((rest.of_ok h).ledger height)

theorem returnValue_ledger {flow : Flow} (h : returnValue s m = .ok flow m')
    (lt : height < m.frames.length) : m.Ledger height m' := by
  obtain ⟨f, mid, found, h⟩ := bind_eq_ok h
  obtain ⟨v, mid', popped, h⟩ := bind_eq_ok h
  obtain ⟨w, mid'', coerced, h⟩ := bind_eq_ok h
  have sameHeld : m.SameHeldMonitors mid'' := IsTrans.trans _ _ _ (frame_keeps.of_ok found)
    (IsTrans.trans _ _ _ (pop_keeps.of_ok popped) ((Keeps.ofExcept _).of_ok coerced))
  exact (sameHeld.ledger height).trans (leave_ledger h (by rwa [sameHeld.length_eq]))

theorem returnVoid_ledger {flow : Flow} (h : returnVoid s m = .ok flow m')
    (lt : height < m.frames.length) : m.Ledger height m' := by
  obtain ⟨f, mid, found, h⟩ := bind_eq_ok h
  have first : m.SameHeldMonitors mid := frame_keeps.of_ok found
  obtain ⟨flow', left, leaves, h⟩ := bind_eq_ok h
  have mark : Keeps Machine.SameHeldMonitors (do
      if flow' = .leave ∧ f.method.type.result ≠ .void then modifyThread ({ · with bare := true })
      return flow' : Exec Flow) := by
    split
    · exact Keeps.bind (fun _ _ => ⟨⟨rfl, rfl, rfl⟩, rfl⟩) fun _ => .pure _
    · exact .pure _
  refine (first.ledger height).trans ?_
  exact (leave_ledger leaves (by rwa [first.length_eq])).trans ((mark.of_ok h).ledger height)

theorem fetch_sameHeldMonitors : Keeps Machine.SameHeldMonitors fetch := by
  refine Keeps.bind (moveFrame_moves fun m g rest g' current h => ?_) fun _ =>
    readU8_keeps.bind fun byte => traceOpcode_keeps byte
  cases h
  refine ⟨⟨rfl, rfl, rfl⟩, ?_⟩
  simp only [Machine.held, Machine.frames, Thread.setFrame, current, List.tail_cons, List.map_cons,
    Frame.beginInstruction]

end Exec

end JavaMachine
