import JavaMachine.Proofs.Containment

/-!
# Calls from outside

A call is prepared, run and concluded.  Its arguments are pushed on top of the operands of the
caller and its counter on top of the counters of the runs in progress, and all of this is gone
when the call is over.  `Engine.spares` is the induction on the budget of the engine by which every
call leaves the frames below it, and their operands, alone.
-/

namespace JavaMachine

open Relation (ReflTransGen)

namespace Exec

variable {d : Discipline} {host : Host} {s : Settings} {m m' : Machine} {cls : LoadedClass}
  {decl : MethodDecl} {args : List Value} {events : Array Event}

/-! ## The beginning of a call -/

theorem drop_slack (clear : d.clear = true) : m.frames.drop d.slack = m.frames := by
  rw [Discipline.slack_of_clear clear, List.drop_zero]

theorem take_slack (clear : d.clear = true) : m.frames.take d.slack = [] := by
  rw [Discipline.slack_of_clear clear, List.take_zero]

theorem base_le_floor (clear : d.clear = true) : m.base ≤ Frame.floor (m.frames.drop d.slack) := by
  rw [drop_slack clear]
  exact Nat.le_of_eq (Thread.stackBase_eq_floor rfl)

theorem prepared_wellFormed (wf : m.thread.WellFormed) :
    (m.prepared args events).thread.WellFormed :=
  have upkeep : m.Upkeep 0 (m.prepared args events) := Machine.upkeep_prepared args events
  upkeep.wellFormed wf

theorem prepared_operands :
    (m.prepared args events).operands = m.operands ++ args.map fun v => ⟨v, m.tag⟩ := by
  rw [Machine.operands, Machine.prepared, Array.toList_append]

/-- The frames that a run may touch, on top of the others. -/
theorem caller_above (d : Discipline) (m : Machine) :
    m.Above (m.frames.drop d.slack) (m.operands.take m.base) (m.frames.take d.slack) where
  frames := (List.take_append_drop _ _).symm
  apart f hf := by
    rw [List.length_take]
    refine Nat.le_trans (Nat.min_le_left _ _) ?_
    by_cases clear : d.clear = true
    · rw [take_slack clear] at hf
      cases hf
    · rw [Discipline.slack_of_not_clear clear] at hf
      cases frames : m.thread.frames with
      | nil =>
          rw [Machine.frames, frames] at hf
          cases hf
      | cons g rest =>
          rw [Machine.frames, frames, List.take_succ_cons, List.take_zero, List.mem_singleton] at hf
          rw [hf, Machine.base, Thread.stackBase_of_cons frames]
  operands := List.take_prefix _ _

theorem prepared_above :
    (m.prepared args events).Above (m.frames.drop d.slack) (m.operands.take m.base)
      (m.frames.take d.slack) where
  frames := (caller_above d m).frames
  apart := (caller_above d m).apart
  operands := by
    rw [prepared_operands]
    exact (List.take_prefix _ _).trans (List.prefix_append _ _)

theorem caller_room (fits : d.slack ≤ m.frames.length) :
    d.slack ≤ (m.frames.take d.slack).length := by
  rw [List.length_take]
  exact Nat.le_min.mpr ⟨Nat.le_refl _, fits⟩

theorem caller_seat (fits : d.slack ≤ m.frames.length) : m.frames.take d.slack ≠ [] ∨
    (m.operands.take m.base).length ≤ Frame.floor (m.frames.drop d.slack) :=
  seat_of_slack (caller_room fits) base_le_floor

theorem prepared_counts (fits : d.slack ≤ m.frames.length) :
    (m.prepared args events).Counts d m.thread.depths (m.frames.take d.slack) 0 where
  depths := rfl
  enough := by
    rw [List.length_take]
    omega
  exact _ _ := by
    rw [List.length_take]
    omega

theorem prepared_retains (wf : m.thread.WellFormed) (clear : d.clear = true) :
    (m.prepared args events).Retains m.frames m.operands (m.frames.take d.slack) := by
  have base : m.base = Frame.floor m.frames := Thread.stackBase_eq_floor rfl
  rw [take_slack clear, Machine.retains_nil, prepared_operands, ← base]
  refine .push wf.base_le fun o ho => ?_
  obtain ⟨v, -, rfl⟩ := List.mem_map.mp ho
  exact Thread.instructionPc_eq_mark rfl

/-- The operands below the arguments of a call are those of the caller. -/
theorem prepared_take (count : args.length = decl.argCount) :
    (m.prepared args events).operands.take
      ((m.prepared args events).operands.length - decl.argCount) = m.operands := by
  rw [prepared_operands, List.length_append, List.length_map, count, Nat.add_sub_cancel,
    List.take_left]

/-- The run of a call begins with the frame of its method. -/
theorem entered_running {r : Reentry} (fits : d.slack ≤ m.frames.length)
    (count : args.length = decl.argCount)
    (h : Invoked d r s decl (m.prepared args events) true m') :
    ∃ kept own, m'.Running d (m.frames.drop d.slack) kept m.thread.depths own 1 ∧
      kept.take m.base = m.operands.take m.base ∧
      (d.clear = true → kept = m.operands ∧ Frame.Grounded kept.length decl own) := by
  cases h with
  | @entered _ mid f sameFrames taken _ enters method _ =>
      obtain ⟨top, pushes, same⟩ := enters.pushes
      obtain ⟨k, rest, before, after⟩ := enters.counted
      have operands : mid.operands = m.operands := taken.trans (prepared_take count)
      have frames : m'.frames = f :: m.frames := by
        rw [same]
        exact pushes.frames.trans (by rw [sameFrames.frames_eq]; rfl)
      have operands' : m'.operands = m.operands := by
        rw [same]
        exact pushes.operands.trans operands
      have base : f.stackBase = m.operands.length := by rw [pushes.base, operands]
      have depths : m'.thread.depths = 1 :: m.thread.depths := by
        have opened := before.symm.trans sameFrames.depths
        cases opened
        exact after
      by_cases clear : d.clear = true
      · refine ⟨m.operands, [f], ⟨⟨?_, ?_, ?_⟩, ⟨depths, ?_, fun _ _ => ?_⟩, fun _ => Nat.le_refl 1⟩,
          rfl, fun _ => ⟨rfl, [], f, rfl, base, method⟩⟩
        · rw [frames, drop_slack clear, List.singleton_append]
        · intro g hg
          rw [List.mem_singleton.mp hg, base]
        · rw [operands']
        · rw [Discipline.slack_of_clear clear, List.length_singleton]
        · rw [Discipline.slack_of_clear clear, List.length_singleton]
      · have above : (m.prepared args events).Above (m.frames.drop d.slack)
            (m.operands.take m.base) (m.frames.take d.slack) := prepared_above
        have length : (f :: m.frames.take d.slack).length = 1 + d.slack := by
          rw [List.length_cons, List.length_take]
          omega
        refine ⟨m.operands.take m.base, f :: m.frames.take d.slack,
          ⟨⟨?_, ?_, ?_⟩, ⟨depths, Nat.le_of_eq length.symm, fun _ _ => length⟩,
            fun clear' => absurd clear' clear⟩, ?_, fun clear' => absurd clear' clear⟩
        · rw [frames, List.cons_append, List.take_append_drop]
        · intro g hg
          cases hg with
          | head =>
              rw [base, List.length_take]
              exact Nat.min_le_right _ _
          | tail _ lower => exact above.apart g lower
        · rw [operands']
          exact List.take_prefix _ _
        · rw [List.take_take, Nat.min_self]

theorem entered_level {r : Reentry} (h : Invoked d r s decl m true m') :
    m'.thread.level = m.thread.level := by
  cases h with
  | entered sameFrames _ _ enters _ _ =>
      obtain ⟨top, pushes, same⟩ := enters.pushes
      rw [same]
      exact pushes.level.trans sameFrames.level

/-! ## The end of a call -/

section Hosts

variable (sound : d.Sound) (hn : host.natives.Keep d host.toReentry)
  (hs : host.Spares d) (hu : host.Upholds d)

include sound hn hs hu

omit hn in
/-- A call that has entered no frame is over. -/
theorem acted_spared (wf : m.thread.WellFormed) (fits : d.slack ≤ m.frames.length)
    (steps : ReflTransGen (Act d host.toReentry s) (m.prepared args events) m') :
    ∃ own, m'.Spared d (m.frames.drop d.slack) (m.operands.take m.base) own ∧
      m'.thread.depths = 0 :: m.thread.depths ∧ m'.thread.level = m.thread.level ∧
      (d = .strict → m'.Retains m.frames m.operands own) := by
  have above : (m.prepared args events).Above (m.frames.drop d.slack) (m.operands.take m.base)
      (m.frames.take d.slack) := prepared_above
  obtain ⟨own, moved, depths⟩ :=
    acts_moved sound hs hu (prepared_wellFormed wf) above.frames (caller_room fits) steps
  obtain ⟨n, -, counts⟩ := moved.counts (prepared_counts fits)
  obtain rfl : n = 0 := by
    have same := counts.depths.symm.trans depths
    injection same
  refine ⟨own, ⟨moved.above above (caller_seat fits), moved.slack (caller_room fits),
    fun pass unhalted => ?_⟩, counts.depths, moved.level, fun strict => ?_⟩
  · have exact := counts.exact pass unhalted
    omega
  · have clear : d.clear = true := by rw [strict]
    have before : (m.prepared args events).Retains (m.frames.drop d.slack) m.operands
        (m.frames.take d.slack) := by
      rw [drop_slack clear]
      exact prepared_retains wf clear
    have after := moved.retains strict before
    rwa [drop_slack clear] at after

omit hn in
/-- A call that stops before it has entered a frame. -/
theorem acted_stops {mid : Machine} {stop : Stop} (wf : m.thread.WellFormed)
    (fits : d.slack ≤ m.frames.length)
    (steps : ReflTransGen (Act d host.toReentry s) (m.prepared args events) mid)
    (stops : ActStop d host.toReentry s stop mid m') :
    ∃ own, m'.Above (m.frames.drop d.slack) (m.operands.take m.base) own ∧
      ((∃ e, stop = .fault e) →
        (∃ n, m'.thread.depths = n :: m.thread.depths) ∧ m'.thread.level = m.thread.level) := by
  have upkeep := Machine.Upkeep.of_steps (fun _ _ => act_upkeep hu) steps
  obtain ⟨own, spared, depths, level, -⟩ := acted_spared sound hs hu wf fits steps
  obtain ⟨own', above, closed⟩ := actStop_above hs
    (upkeep.wellFormed (prepared_wellFormed wf)) spared.toAbove
    (seat_of_slack spared.slack base_le_floor) spared.slack stops
  refine ⟨own', above, fun fault => ?_⟩
  obtain ⟨depths', level'⟩ := closed fault
  exact ⟨⟨0, depths'.trans depths⟩, level'.trans level⟩

/-- A call that is over has left all of its frames, unless the machine is halted. -/
theorem Ran.spared {o : RunOutcome} (wf : m.thread.WellFormed) (fits : d.slack ≤ m.frames.length)
    (ready : d.Ready m) (count : args.length = decl.argCount)
    (h : Ran host cls decl s (m.prepared args events) o m') :
    ∃ own, m'.Spared d (m.frames.drop d.slack) (m.operands.take m.base) own ∧
      (∃ n, m'.thread.depths = n :: m.thread.depths) ∧ m'.thread.level = m.thread.level ∧
      (d = .strict → m'.Retains m.frames m.operands own) := by
  let prepared := m.prepared args events
  have ready' : d.Ready prepared := ready
  have wf' : prepared.thread.WellFormed := prepared_wellFormed wf
  have acted {m' : Machine} (steps : ReflTransGen (Act d host.toReentry s) prepared m') :
      ∃ own, m'.Spared d (m.frames.drop d.slack) (m.operands.take m.base) own ∧
        (∃ n, m'.thread.depths = n :: m.thread.depths) ∧ m'.thread.level = m.thread.level ∧
        (d = .strict → m'.Retains m.frames m.operands own) := by
    obtain ⟨own, spared, depths, level, retains⟩ := acted_spared sound hs hu wf fits steps
    exact ⟨own, spared, ⟨0, depths⟩, level, retains⟩
  cases h with
  | @run mid _ _ entered ran =>
      have invoked := invoke_ok hn ready' entered
      obtain ⟨kept, own, running, low, ground⟩ := entered_running fits count invoked
      have entering : prepared.Upkeep s.config.maxFrames mid :=
        after_of_ok entered ▸ invoke_upkeep hn hu ready' cls decl
      obtain ⟨own', spared, depths, level, retains⟩ := hs.run (entering.wellFormed wf')
        (invoke_ready hn ready' entered) running
        (fun clear => ⟨(ground clear).2, base_le_floor clear⟩) ran
      rw [low] at spared
      have same : mid.thread.level = prepared.thread.level := entered_level invoked
      refine ⟨own', spared, depths, level.trans same, fun strict => ?_⟩
      have clear : d.clear = true := by rw [strict]
      have retains := retains strict
      rwa [drop_slack clear, (ground clear).1] at retains
  | done unentered _ =>
      cases invoke_ok hn ready' unentered with
      | acted steps => exact acted steps
  | threw unentered _ _ =>
      cases invoke_ok hn ready' unentered with
      | acted steps => exact acted steps
  | uncaught unentered _ _ delivered =>
      cases invoke_ok hn ready' unentered with
      | acted steps =>
          exact acted (steps.trans ((deliverUncaught_along (acts_calls host) _).of_ok trivial delivered).1)

/-- A call that stops in a fault has still its counter. -/
theorem RanStop.above {stop : Stop} (wf : m.thread.WellFormed) (fits : d.slack ≤ m.frames.length)
    (ready : d.Ready m) (count : args.length = decl.argCount)
    (h : RanStop host cls decl s (m.prepared args events) stop m') :
    ∃ own, m'.Above (m.frames.drop d.slack) (m.operands.take m.base) own ∧
      ((∃ e, stop = .fault e) →
        (∃ n, m'.thread.depths = n :: m.thread.depths) ∧ m'.thread.level = m.thread.level) := by
  let prepared := m.prepared args events
  have ready' : d.Ready prepared := ready
  cases h with
  | invoking failed =>
      obtain ⟨mid, steps, stops⟩ := invoke_error hn ready' failed
      cases stops with
      | act stops => exact acted_stops sound hs hu wf fits steps stops
      | @pushed f _ pushes =>
          obtain ⟨own, spared, depths, level, -⟩ := acted_spared sound hs hu wf fits steps
          exact ⟨f :: own, spared.toAbove.pushes pushes, fun _ =>
            ⟨⟨0, pushes.depths.trans depths⟩, pushes.level.trans level⟩⟩
  | @running mid entered failed =>
      have invoked := invoke_ok hn ready' entered
      obtain ⟨kept, own, running, low, -⟩ := entered_running fits count invoked
      have entering : prepared.Upkeep s.config.maxFrames mid :=
        after_of_ok entered ▸ invoke_upkeep hn hu ready' cls decl
      obtain ⟨own', above, closed⟩ := hs.runStop (entering.wellFormed (prepared_wellFormed wf))
        (invoke_ready hn ready' entered) running base_le_floor failed
      rw [low] at above
      have same : mid.thread.level = prepared.thread.level := entered_level invoked
      refine ⟨own', above, fun fault => ?_⟩
      obtain ⟨depths, level⟩ := closed fault
      exact ⟨depths, level.trans same⟩
  | delivering unentered failed =>
      cases invoke_ok hn ready' unentered with
      | acted steps =>
          obtain ⟨mid, steps', stops⟩ :=
            (deliverUncaught_along (acts_calls (d := d) host) _).of_error trivial failed
          exact acted_stops sound hs hu wf fits (steps.trans steps') stops

omit sound hn hs hu in
/-- Concluding a call drops operands of the caller only. -/
theorem concluded_spared {ran : Machine} {own : List Frame} {outer : List Nat} {i : Invocation}
    {base : Nat} {o : RunOutcome} (wf : ran.thread.WellFormed)
    (spared : ran.Spared d (m.frames.drop d.slack) (m.operands.take m.base) own)
    (concluded : conclude decl base o s (ran.withDepths outer) = .ok i m') :
    m'.Spared d (m.frames.drop d.slack) (m.operands.take m.base) own ∧
      m'.thread.depths = outer ∧ m'.thread.level = ran.thread.level ∧
      (d = .strict → ran.Retains m.frames m.operands own →
        m'.Retains m.frames m.operands own) := by
  have closed : ran.Upkeep 0 (ran.withDepths outer) := Machine.upkeep_withDepths outer
  have wf' := closed.wellFormed wf
  have sameFrames : (ran.withDepths outer).SameFrames m' := (conclude_keeps _ _ _).of_ok concluded
  have seat : own ≠ [] ∨ (m.operands.take m.base).length ≤ Frame.floor (m.frames.drop d.slack) :=
    seat_of_slack spared.slack base_le_floor
  have moved : (ran.withDepths outer).Moved d (m.frames.drop d.slack) own m' own :=
    sameFrames_moved wf' (sameFrames.wellFormed wf') spared.frames sameFrames
  have above : (ran.withDepths outer).Above (m.frames.drop d.slack) (m.operands.take m.base) own :=
    ⟨spared.frames, spared.apart, spared.operands⟩
  refine ⟨⟨moved.above above seat, spared.slack, fun pass unhalted => ?_⟩, sameFrames.depths,
    sameFrames.level, fun strict retains => ?_⟩
  · exact spared.exact pass (Machine.running_before (m := ran) sameFrames.halted unhalted)
  · have clear : d.clear = true := by rw [strict]
    have after := moved.retains strict (by rw [drop_slack clear]; exact retains)
    rwa [drop_slack clear] at after

theorem execute_spares {i : Invocation} (wf : m.thread.WellFormed)
    (fits : d.slack ≤ m.frames.length) (ready : d.Ready m)
    (h : execute host cls decl args s m = .ok i m') :
    ∃ own, m'.Spared d (m.frames.drop d.slack) (m.operands.take m.base) own ∧
      m'.thread.depths = m.thread.depths ∧ m'.thread.level = m.thread.level ∧
      (d = .strict → m'.Retains m.frames m.operands own) := by
  obtain ⟨count, events, outcome, ran, k, outer, ran', depths, concluded⟩ := execute_ok h
  have upkeep := ran'.upkeep hn hu (m := m.prepared args events) ready
  obtain ⟨own, spared, ⟨n, counter⟩, level, retains⟩ :=
    ran'.spared sound hn hs hu wf fits ready count
  have same := counter.symm.trans depths
  cases same
  obtain ⟨spared', depths', level', retains'⟩ := concluded_spared
    (upkeep.wellFormed (prepared_wellFormed wf)) spared concluded
  exact ⟨own, spared', depths', level'.trans level, fun strict => retains' strict (retains strict)⟩

theorem execute_stops {stop : Stop} (wf : m.thread.WellFormed) (fits : d.slack ≤ m.frames.length)
    (ready : d.Ready m) (h : execute host cls decl args s m = .error stop m') :
    ∃ own, m'.Above (m.frames.drop d.slack) (m.operands.take m.base) own ∧
      ((∃ e, stop = .fault e) →
        m'.thread.depths = m.thread.depths ∧ m'.thread.level = m.thread.level) := by
  cases execute_error h with
  | refused => exact ⟨_, caller_above d m, fun _ => ⟨rfl, rfl⟩⟩
  | paused count notFault stops =>
      obtain ⟨own, above, -⟩ := stops.above sound hn hs hu wf fits ready count
      exact ⟨own, above, fun ⟨e, fault⟩ => absurd fault (notFault e)⟩
  | @faulted ran events k outer count fault stops depths =>
      obtain ⟨own, above, closed⟩ := stops.above sound hn hs hu wf fits ready count
      obtain ⟨⟨n, counter⟩, level⟩ := closed fault
      have same := counter.symm.trans depths
      cases same
      exact ⟨own, ⟨above.frames, above.apart, above.operands⟩, fun _ => ⟨rfl, level⟩⟩
  | @concluding _ ran events outcome k outer count ran' depths concluded =>
      have upkeep := ran'.upkeep hn hu (m := m.prepared args events) ready
      obtain ⟨own, spared, ⟨n, counter⟩, level, -⟩ :=
        ran'.spared sound hn hs hu wf fits ready count
      have same := counter.symm.trans depths
      cases same
      have closed : ran.Upkeep 0 (ran.withDepths m.thread.depths) := Machine.upkeep_withDepths _
      have above : (ran.withDepths m.thread.depths).Above (m.frames.drop d.slack)
          (m.operands.take m.base) own := ⟨spared.frames, spared.apart, spared.operands⟩
      have sameFrames : (ran.withDepths m.thread.depths).SameFrames m' :=
        (conclude_keeps _ _ _).of_error concluded
      refine ⟨own, above.sameFrames (seat_of_slack spared.slack base_le_floor)
        (closed.wellFormed (upkeep.wellFormed (prepared_wellFormed wf))) sameFrames, fun _ => ?_⟩
      exact ⟨sameFrames.depths, sameFrames.level.trans level⟩
  | @uncounted ran events count ran' empty =>
      obtain ⟨outcome, ran'⟩ | ⟨e, ran'⟩ := ran'
      · obtain ⟨own, -, ⟨n, counter⟩, -⟩ := ran'.spared sound hn hs hu wf fits ready count
        rw [empty] at counter
        cases counter
      · obtain ⟨own, -, closed⟩ := ran'.above sound hn hs hu wf fits ready count
        obtain ⟨⟨n, counter⟩, -⟩ := closed ⟨e, rfl⟩
        rw [empty] at counter
        cases counter

end Hosts

end Exec

namespace Engine

open Exec

/-- Every call leaves the frames below it and their operands alone, and closes what it has
opened. -/
theorem spares {natives : Natives} {d : Discipline} (sound : d.Sound)
    (hn : ∀ n, natives.Keep d (reentry natives n)) (n : Nat) : (reentry natives n).Spares d := by
  induction n with
  | zero =>
      refine ⟨fun _ _ _ h => ?_, fun _ _ _ h => ?_, fun _ _ _ _ h => ?_, fun _ _ running _ h => ?_⟩
      · rw [reentry_call_zero] at h
        cases h
      · rw [reentry_call_zero] at h
        cases h
        exact ⟨_, caller_above d _, fun ⟨_, impossible⟩ => nomatch impossible⟩
      · rw [reentry_run_zero] at h
        cases h
      · rw [reentry_run_zero] at h
        cases h
        exact ⟨_, running.toAbove.take _, fun ⟨_, impossible⟩ => nomatch impossible⟩
  | succ n ih =>
      have hu := upholds hn n
      have hset := settles natives n
      refine ⟨fun wf fits ready h => ?_, fun wf fits ready h => ?_,
        fun wf ready running ground h => ?_, fun wf ready running low_le h => ?_⟩
      · rw [reentry_call_succ] at h
        exact execute_spares sound (hn n) ih hu wf fits ready h
      · rw [reentry_call_succ] at h
        exact execute_stops sound (hn n) ih hu wf fits ready h
      · rw [reentry_run_succ] at h
        exact runLoop_spares sound (hn n) hset ih hu wf ready running ground h
      · rw [reentry_run_succ] at h
        exact runLoop_stops sound (hn n) hset ih hu wf ready running low_le h

end Engine

end JavaMachine
