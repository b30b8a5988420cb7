import JavaMachine.Proofs.Delivery
import JavaMachine.Proofs.Results

/-!
# Return addresses stay in their frames

A return address is a value like any other.  It can be copied, stored into a local variable and
loaded from there, and all of this stays in the frame whose jump has pushed it.  Arrays refuse it,
and so do monitors.  But three ways lead out of the frame, and none of them tells a return address
from a reference: a field that is stored into, an argument of a call, and the result of a method.

So the whole engine keeps `Machine.Confined`, however deep it is re-entered and however it ends, as
long as natives keep it by themselves.  As long as nothing leaks, every return address is in the frame
that has pushed it, and no call answers one, unless it pops an operand that was its caller's own.
-/

namespace JavaMachine

open Exec
open Relation (ReflTransGen)

instance : AllowsStirring Machine.Confined where
  core _ _ _ confined := confined
  stirring := Machine.confined_world

namespace Machine

variable {m m' : Machine}

theorem confined_atLevel (level : Nat) : m.Confined (m.atLevel level) :=
  confined_thread (Nat.le_refl _) fun _ tight => tight.thread

theorem confined_withDepths (depths : List Nat) : m.Confined (m.withDepths depths) :=
  confined_thread (Nat.le_refl _) fun _ tight => tight.thread

theorem handed_leaks (m : Machine) (v : Value) (bare : Bool) :
    (m.handed (some v) bare).leaks = m.leaks + if v.isReturnAddress then 1 else 0 := by
  simp only [leaks, handed, Option.toList_some, List.countP_singleton, Nat.add_assoc]

end Machine

namespace Exec

variable {host : Host} {level : Nat} {s : Settings} {m m' : Machine} {cls : LoadedClass}
  {decl : MethodDecl} {args : List Value}

/-! ## What the engine does -/

theorem confined_lax : (Ways.keeping Machine.Confined).Lax Machine.Confined := Ways.keeping_lax id

/-- A return address that is stored into a static field is counted. -/
theorem setStatic_confined (f : FieldRef) (v : Value) :
    Keeps Machine.Confined (setStatic f v) := by
  intro s m arena
  refine ⟨arena, Nat.add_le_add_right (Nat.le_add_right _ _) _, fun unleaked tight => ?_⟩
  obtain ⟨owned, heap, statics⟩ := tight
  have plain : v.isReturnAddress = false := World.plain_of_unleaked (Nat.add_right_cancel unleaked)
  refine ⟨owned, heap, fun id values held w listed => ?_⟩
  have modified : ((m.world.classStates.modify f.owner.id fun state =>
      { state with statics := state.statics.setIfInBounds f.index v })[id]?).map
        ClassState.statics = some values := held
  rw [Array.getElem?_modify] at modified
  cases old : m.world.classStates[id]? with
  | none => simp [old] at modified
  | some state =>
      have before := statics id state.statics (by rw [old]; rfl)
      rw [old] at modified
      split at modified
      · cases modified
        rcases Array.mem_or_eq_of_mem_setIfInBounds listed with kept | rfl
        · exact before w kept
        · exact plain
      · cases modified
        exact before w listed

theorem newInstance_confined (cls : LoadedClass) (reserved : Bool) :
    Keeps Machine.Confined (newInstance cls reserved) := by
  refine library_keeps.bind fun lib s m => allocate_allowed fun r heap made arena => ?_
  exact ⟨arena.insert made, Nat.le_refl _, fun _ tight =>
    ⟨tight.thread, tight.world.heap.fresh arena made, tight.world.statics⟩⟩

section

variable (hn : host.natives.Abide Machine.Confined host.toReentry)
  (hr : host.toReentry.Goes (.keeping Machine.Confined))

include hn hr

theorem uses_confined : UsesGo (.keeping Machine.Confined) host where
  getStatic := (getStaticField_along (allowsWithin_of_lax confined_lax)
    (initialises_stirring hr)).goes
  putStatic := (putStaticField_along (allowsWithin_of_lax confined_lax) (initialises_stirring hr)
    fun f v => (setStatic_confined f v).goes).goes
  invokeStatic := (invokeStatic_along (allowsWithin_of_lax confined_lax) (initialises_stirring hr)
    fun cls decl => (invoke_goes confined_lax hn hr cls decl).ready fun _ _ => trivial).goes
  newObject := (newObject_along (allowsWithin_of_lax confined_lax) (initialises_stirring hr)
    fun cls => (orOutOfMemory_keeps (newInstance_confined cls false)).goes).goes

theorem invoke_confined (cls : LoadedClass) (decl : MethodDecl) :
    Keeps Machine.Confined (invoke host cls decl) :=
  (invoke_goes confined_lax hn hr cls decl).keeps

theorem step_confined : Keeps Machine.Confined (step host) :=
  (step_goes confined_lax (invoke_goes confined_lax hn hr) (uses_confined hn hr)).keeps

theorem turn_confined (level : Nat) : Keeps Machine.Confined (turn host level) :=
  (turn_goes confined_lax (step_confined hn hr).goes fun _ =>
    deliverUncaught_goes confined_lax hr fun _ => (record_stirring _).goes).keeps

end

/-! ## Results -/

/-- An instruction that returns a value has pushed it for the caller; a return address is counted. -/
theorem step_hands {f : Frame} {rest : List Frame} {flow : Flow}
    (current : m.thread.frames = f :: rest) (next : f.Next .returnValue)
    (arena : m.world.heap.Arena) (h : step host s m = .ok flow m') :
    ∃ o, m'.operands.getLast? = some o ∧
      m.leaks + (if o.value.isReturnAddress then 1 else 0) ≤ m'.leaks := by
  obtain ⟨byte, a, fetched, h⟩ := bind_eq_ok h
  obtain ⟨-, rfl⟩ := fetch_byte current fetched
  obtain ⟨f₀, f', rest', fetches⟩ := fetch_ok fetched
  have counted : m.leaks ≤ a.leaks := (fetch_core.of_ok (R := Machine.Confined) fetched arena).counted
  rw [next.2] at h
  obtain ⟨v, b, yields, run⟩ | ⟨stop, b, -, run⟩ := returnValue_split (s := s) fetches.frames
  · obtain ⟨n, outer, events, -, -, rfl⟩ := leave_returned fetches yields (run.symm.trans h)
    cases yields with
    | value took _ =>
        have same : b.leaks = a.leaks := by
          rw [took.rest]
          rfl
        refine ⟨⟨v, _⟩, by rw [Machine.handed_operands]; exact List.getLast?_concat, ?_⟩
        rw [Machine.handed_leaks]
        exact Nat.add_le_add_right (counted.trans same.ge) _
  · cases run.symm.trans h

/-- A turn that completes a run by returning a value has pushed it for the caller. -/
theorem turn_hands {low : List Frame} {v : Value} (gives : m.Gives decl low v)
    (arena : m.world.heap.Arena) (h : turn host level s m = .ok (some .completed) m') :
    ∃ o, m'.operands.getLast? = some o ∧
      m.leaks + (if o.value.isReturnAddress then 1 else 0) ≤ m'.leaks := by
  obtain ⟨b, begins, stepped, -⟩ := turn_completed h
  obtain ⟨f, -, current, -, next, -⟩ := gives
  obtain ⟨ordered, counted, -⟩ := begins.within.confined arena
  obtain ⟨o, top, handed⟩ :=
    step_hands (begins.sameStacks.frames.trans current) next ordered stepped
  exact ⟨o, top, Nat.le_trans (Nat.add_le_add_right counted _) handed⟩

end Exec

/-! ## The engine -/

namespace Engine

variable {natives : Natives} {budget : Nat} {cls : LoadedClass} {decl : MethodDecl}
  {args : List Value} {s : Settings} {m m' last ran : Machine} {v : Value}

section

variable (hn : ∀ n, natives.Abide Machine.Confined (reentry natives n))

include hn

/-- Return addresses stay in their frames or leak, however deep the engine is re-entered. -/
theorem confined (n : Nat) : (reentry natives n).Goes (.keeping Machine.Confined) :=
  goes confined_lax hn (fun k ih => uses_confined (hn k) ih) (fun _ => (record_stirring _).goes)
    (fun _ _ => runLoop_goes confined_lax fun _ => Keeps.goes fun _ _ => Machine.confined_atLevel _) n

/-- A run that completes has come to its last turn with its return addresses in their frames. -/
theorem Finishes.confined (h : Finishes natives cls decl args s m budget last ran) :
    m.Confined last ∧ last.Confined ran := by
  cases h with
  | @intro n mid _ _ count entered looped rounds final =>
      have prepared : m.Confined ((prepare decl args).after s m) := prepare_core decl args s m
      have invoked : Machine.Confined _ mid :=
        (invoke_confined (hn (n + 1)) (Engine.confined hn (n + 1)) cls decl).of_ok entered
      have turning : Keeps Machine.Confined (turn (host natives n) (mid.thread.level + 1)) :=
        turn_confined (hn n) (Engine.confined hn n) _
      have turned : (mid.atLevel (mid.thread.level + 1)).Confined last :=
        closed_steps (ReflTransGen.mono (fun _ _ round => turning.of_ok round) _ _ rounds)
      refine ⟨?_, turning.of_ok final⟩
      exact IsTrans.trans _ _ _ prepared (IsTrans.trans _ _ _ invoked
        (IsTrans.trans _ _ _ (Machine.confined_atLevel _) turned))

/-- A value that a call answers is none of another frame's return addresses. -/
theorem call_held (arena : m.world.heap.Arena) (tight : m.Tight)
    (h : call natives budget cls decl args s m = .ok (.returned (some v)) m')
    (unleaked : m'.leaks = m.leaks) : v.HeldBy m'.thread.issued := by
  obtain ⟨n, rfl, called⟩ := reentry_call_ok h
  obtain ⟨-, outcome, ran, d, outer, run, -, concluded⟩ := execute_ran called
  have ends : (ran.withDepths outer).Confined m' := (conclude_keeps decl _ _).of_ok concluded
  have running : Keeps Machine.Confined (invokeAndRun (host natives n) cls decl) :=
    (invokeAndRun_goes confined_lax (invoke_goes confined_lax (hn n) (confined hn n))
      (confined hn n) (deliverUncaught_goes confined_lax (confined hn n)
        fun _ => (record_stirring _).goes) cls decl).keeps
  have before : m.Confined (ran.withDepths outer) :=
    IsTrans.trans _ _ _ (prepare_core decl args s m)
      (IsTrans.trans _ _ _ (running.of_ok run) (Machine.confined_withDepths outer))
  obtain ⟨ordered, counted, kept⟩ := before arena
  have counted' := (ends ordered).counted
  obtain ⟨o, rfl, took⟩ := pop_took (conclude_value concluded)
  have held := (took.held (kept (by omega) tight)).2.1 o (List.mem_singleton_self o)
  rw [took.rest]
  exact held

/-- A value that a call of a method with code answers is no return address, or it was an operand of
the caller. -/
theorem call_plain (hk : ∀ n, natives.Keep .strict (reentry natives n))
    (arena : m.world.heap.Arena) (code : decl.flags.isNative = false)
    (wf : m.thread.WellFormed) (clear : m.thread.pending = none)
    (h : call natives budget cls decl args s m = .ok (.returned (some v)) m')
    (unleaked : m'.leaks = m.leaks) :
    v.isReturnAddress = false ∨ ∃ o, o.value = v ∧ m.operands = m'.operands ++ [o] := by
  obtain ⟨last, ran, finishes, concluded⟩ := finishes_of_returned code h
  have ends : (finished ran).Confined m' := (conclude_keeps decl _ _).of_ok concluded
  have popped : pop s (finished ran) = .ok v m' := conclude_value concluded
  obtain ⟨before, turned⟩ := Finishes.confined hn finishes
  obtain ⟨-, -, ⟨w, gives, operands⟩ | ⟨-, operands⟩⟩ := finishes.gives hk wf clear
  · obtain ⟨rfl, -⟩ := finished_pop operands popped
    obtain ⟨ordered, counted, -⟩ := before arena
    have closes : ran.Confined (finished ran) :=
      IsTrans.trans _ _ _ (Machine.confined_atLevel _) (Machine.confined_withDepths _)
    have after := (IsTrans.trans _ _ _ closes ends (turned ordered).ordered).counted
    cases finishes with
    | intro _ _ _ _ final =>
        obtain ⟨o, top, handed⟩ := turn_hands gives ordered final
        rw [operands, List.getLast?_concat] at top
        cases top
        refine .inl (Bool.eq_false_iff.mpr fun address => ?_)
        rw [if_pos address] at handed
        omega
  · obtain ⟨o, value, took⟩ := pop_took popped
    exact .inr ⟨o, value, operands.symm.trans took.split⟩

end

end Engine

/-! ## Pieces of work -/

/-- What a machine does in one piece of work, with a result or without. -/
inductive Machine.Piece (natives : Natives) (m : Machine) : Machine → Prop
  /-- It executes an instruction. -/
  | instruction (s : Settings) (budget : Nat) :
      Piece natives m ((step (Engine.host natives budget)).after s m)
  /-- It calls a method. -/
  | call (s : Settings) (budget : Nat) (cls : LoadedClass) (decl : MethodDecl) (args : List Value) :
      Piece natives m ((Engine.call natives budget cls decl args).after s m)
  /-- It goes on with its frames. -/
  | run (s : Settings) (budget : Nat) : Piece natives m ((Engine.run natives budget).after s m)

theorem Machine.Piece.confined {natives : Natives} {m m' : Machine}
    (hn : ∀ n, natives.Abide Machine.Confined (Engine.reentry natives n))
    (h : m.Piece natives m') : m.Confined m' := by
  have entered := Engine.confined hn
  cases h with
  | instruction s n => exact step_confined (hn n) (entered n) s m
  | call s n cls decl args => exact ((entered n).call cls decl args).keeps s m
  | run s n => exact (entered n).run.keeps s m

namespace Sample

/-- A method that jumps to a subroutine, which stores its return address and goes back there. -/
def subroutine : MethodDecl :=
  { method [0xa8, 0x00, 0x04, 0xb1, 0x4b, 0xa9, 0x00] [] with maxLocals := 1 }

/-- A method that returns a return address as its result. -/
def leaking : MethodDecl := yielding [0xa8, 0x00, 0x03, 0xb0]

/-- The return address that a call has answered, if it has. -/
def answeredAddress : EStateM.Result Stop Machine Invocation → Option Nat
  | .ok (.returned (some (.returnAddress pc))) _ => some pc
  | _ => none

theorem answeredAddress_eq_some {result : EStateM.Result Stop Machine Invocation} {pc : Nat}
    (h : answeredAddress result = some pc) :
    ∃ m, result = .ok (.returned (some (.returnAddress pc))) m := by
  unfold answeredAddress at h
  split at h
  · cases h
    exact ⟨_, rfl⟩
  · cases h

theorem outside_tight : outside.Tight where
  thread := .outside nofun
  world :=
    { heap := fun r e found => by simp [outside, Heap.entry, Heap.cell, Heap.cell?, Except.map] at found
      statics := fun id values held => by simp [outside] at held }

end Sample

namespace Engine

/-- Return addresses stay in the frames whose jumps have pushed them.

If this is so in a machine, then it is so again after any work that the machine does, of whatever
code and however it ends, as long as no return address is passed as an argument, returned as a result
or stored into a field: a frame holds none in its local variables and among its operands but those
that it has pushed itself, and neither an object, an array nor a static field holds any.  And a call
answers none but one that its caller has pushed itself; if its method has code, then it answers none
at all, unless it has popped an operand that was its caller's. -/
theorem addresses_confined {natives : Natives} {m : Machine}
    (hn : ∀ n, natives.Abide Machine.Confined (reentry natives n))
    (hk : ∀ n, natives.Keep .strict (reentry natives n)) (arena : m.world.heap.Arena)
    (tight : m.Tight) :
    (∀ m', ReflTransGen (Machine.Piece natives) m m' → m'.leaks = m.leaks → m'.Tight) ∧
    ∀ budget cls decl args s v m',
      call natives budget cls decl args s m = .ok (.returned (some v)) m' → m'.leaks = m.leaks →
      v.HeldBy m'.thread.issued ∧
        (decl.flags.isNative = false → m.thread.WellFormed → m.thread.pending = none →
          v.isReturnAddress = false ∨ ∃ o, o.value = v ∧ m.operands = m'.operands ++ [o]) := by
  refine ⟨fun m' work unleaked => ?_, fun budget cls decl args s v m' called unleaked => ⟨?_, ?_⟩⟩
  · have confined : m.Confined m' :=
      closed_steps (ReflTransGen.mono (fun _ _ piece => piece.confined hn) _ _ work)
    exact (confined arena).kept unleaked tight
  · exact call_held hn arena tight called unleaked
  · exact fun code wf clear => call_plain hn hk arena code wf clear called unleaked

/-- A thread without frames calls a method, which jumps to its subroutine.  After two instructions
the frame holds the return address in a local variable, and no other one is anywhere. -/
theorem addresses_confined_subroutine : ∃ m', Sample.outside.Piece coreNatives m' ∧
    m'.frames.any (·.locals.any Value.isReturnAddress) = true ∧ m'.leaks = Sample.outside.leaks ∧
    m'.Tight := by
  have piece : Sample.outside.Piece coreNatives
      ((call coreNatives 4 Sample.cls Sample.subroutine []).after {} Sample.outside) :=
    .call {} 4 Sample.cls Sample.subroutine []
  refine ⟨_, piece, by decide +kernel, by decide +kernel, ?_⟩
  exact (addresses_confined (fun _ => coreNatives_abide _) (fun _ => coreNatives_keep .strict _)
    (Heap.Arena.blank none none) Sample.outside_tight).1 _ (.single piece) (by decide +kernel)

/-- A method whose result is an object returns the address behind its jump, and the call answers
it. -/
theorem addresses_confined_leaking : Sample.outside.Tight ∧ ∃ m',
    call coreNatives 4 Sample.cls Sample.leaking [] {} Sample.outside =
      .ok (.returned (some (.returnAddress 3))) m' :=
  ⟨Sample.outside_tight, Sample.answeredAddress_eq_some (by decide +kernel)⟩

end Engine

end JavaMachine
