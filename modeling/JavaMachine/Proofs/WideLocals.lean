import JavaMachine.Proofs.Isolation
import JavaMachine.Proofs.Reading

/-!
# Long and double local variables

Whatever was done to a thread, a long or a double in a local variable has a slot behind it
(`Reachable.paired`), by induction on what was done: a frame begins with the arguments of its
method, and each store keeps the slots in pairs.

That null stands in the second slot is true as long as nothing but null was stored there.  A store
instruction of any kind may do that, and then the long in front is still there.  An increment never
does, since it needs a number in its slot and finds null in a second one.
-/

namespace JavaMachine

open Exec Engine

variable {natives : Natives} {m m' : Machine} {s : Settings} {f : Frame} {rest : List Frame}
  {slot : Nat}

/-! ## Every thread -/

theorem Reachable.paired (free : ∀ n, natives.Keep .free (reentry natives n))
    (h : Reachable natives m) : m.thread.Paired := by
  induction h with
  | fresh world id => exact fun f hf => nomatch hf
  | operation s op _ paired =>
      obtain ⟨cap, upkeep⟩ := op.perform_upkeep free s
      exact upkeep.paired paired
  | beside world depths level pending _ paired => exact paired

/-- A sequence of operations. -/
theorem Reachable.performed (h : Reachable natives m) (s : Settings) (ops : List Operation) :
    Reachable natives (ops.foldl (fun m op => (op.perform natives).after s m) m) := by
  induction ops generalizing m with
  | nil => exact h
  | cons op ops ih => exact ih (.operation s op h)

/-! ## Stores and increments -/

namespace Exec

theorem moveFrame_setLocal_ok {v : Value} {u : Unit} (current : m.frames = f :: rest)
    (h : moveFrame (·.setLocal slot v) s m = .ok u m') :
    ∃ f', f.setLocal slot v = .ok f' ∧ m'.frames = f' :: rest ∧ m'.operands = m.operands := by
  cases stored : f.setLocal slot v with
  | ok f' =>
      cases (moveFrame_of_ok current stored).symm.trans h
      exact ⟨f', rfl, rfl, rfl⟩
  | error e => cases (moveFrame_of_error current stored).symm.trans h

/-- A store takes the top operand, as a value of its kind. -/
theorem storeLocal_ok {kind : LocalKind} {u : Unit} (current : m.frames = f :: rest)
    (h : storeLocal kind slot s m = .ok u m') :
    ∃ o v f', m.operands = m'.operands ++ [o] ∧ asLocal kind o.value = .ok v ∧
      f.setLocal slot v = .ok f' ∧ m'.frames = f' :: rest := by
  obtain ⟨_, mid, popped, h⟩ := bind_eq_ok h
  obtain ⟨o, rfl, took⟩ := pop_took popped
  obtain ⟨v, _, kept, h⟩ := bind_eq_ok h
  obtain ⟨kept, same⟩ := ofExcept_eq_ok kept
  rw [same] at h
  have current : mid.frames = f :: rest := by
    rw [took.rest]
    exact current
  obtain ⟨f', stored, frames, operands⟩ := moveFrame_setLocal_ok current h
  exact ⟨o, v, f', by rw [took.split, operands], kept, stored, frames⟩

/-- An increment finds a number in its slot. -/
theorem incrementLocal_ok {delta : Int32} {u : Unit} (current : m.frames = f :: rest)
    (h : incrementLocal slot delta s m = .ok u m') :
    ∃ v n f', f.locals[slot]? = some v ∧ v.asInt = .ok n ∧
      f.setLocal slot (.int (n + delta)) = .ok f' ∧ m'.frames = f' :: rest := by
  rw [incrementLocal, bind_of_ok (frame_of_cons current)] at h
  obtain ⟨v, _, read, h⟩ := bind_eq_ok h
  obtain ⟨read, same⟩ := ofExcept_eq_ok read
  rw [same] at h
  obtain ⟨n, _, number, h⟩ := bind_eq_ok h
  obtain ⟨number, same⟩ := ofExcept_eq_ok number
  rw [same] at h
  obtain ⟨f', stored, frames, -⟩ := moveFrame_setLocal_ok current h
  refine ⟨v, n, f', ?_, number, stored, frames⟩
  unfold Frame.getLocal at read
  split at read
  next w held => rw [held, Except.ok.inj read]
  next => cases read

end Exec

/-- An increment keeps every long and double that has both of its slots: it finds no number in
them. -/
theorem Frame.Stores.increment {f' : Frame} {v : Value} {n next : Int32} {i : Nat} {w : Value}
    (h : f.Stores slot (.int next) f') (paired : f.Paired) (held : f.locals[slot]? = some v)
    (number : v.asInt = .ok n) (found : f.locals[i]? = some w) (wide : w.isWide = true)
    (whole : i ∉ f.torn) :
    f'.locals[i]? = some w ∧ f'.locals[i + 1]? = some .null ∧ i ∉ f'.torn := by
  have first : slot ≠ i := by
    rintro rfl
    obtain rfl : v = w := Option.some.inj (held.symm.trans found)
    cases v with
    | long _ => cases number
    | double _ => cases number
    | _ => cases wide
  have second : slot ≠ i + 1 := by
    rintro rfl
    obtain rfl : v = .null :=
      Option.some.inj (held.symm.trans ((paired i w found wide).2 whole))
    cases number
  have still : i ∉ f'.torn := fun torn => second ((h.mem_torn found wide whole).mp torn).1
  cases h.fate paired found wide whole with
  | kept kept null => exact ⟨kept, null, still⟩
  | replaced place => exact absurd place first
  | cleared place pair => cases pair
  | torn place => exact absurd place second

/-! ## Both slots -/

/-- Whatever was done to a thread, a long or a double in a local variable has a second slot, and
null is in it unless something else was stored there.

A store instruction keeps or destroys each of them that has both of its slots, or it stores
something other than null into the second one, and then, and only then, this is noted down.  An
increment keeps each of them. -/
theorem Reachable.wide_locals (free : ∀ n, natives.Keep .free (reentry natives n))
    (h : Reachable natives m) :
    (∀ f ∈ m.frames, ∀ i w, f.locals[i]? = some w → w.isWide = true →
      i + 1 < f.locals.size ∧ (i ∉ f.torn → f.locals[i + 1]? = some .null)) ∧
    (∀ s kind slot m' f rest, m.frames = f :: rest → storeLocal kind slot s m = .ok () m' →
      ∃ o v f', m.operands = m'.operands ++ [o] ∧ asLocal kind o.value = .ok v ∧
        m'.frames = f' :: rest ∧ f'.locals[slot]? = some v ∧
        ∀ i w, f.locals[i]? = some w → w.isWide = true → i ∉ f.torn →
          f'.Fate slot v i w ∧ (i ∈ f'.torn ↔ slot = i + 1 ∧ v.isNull = false)) ∧
    ∀ s slot delta m' f rest, m.frames = f :: rest → incrementLocal slot delta s m = .ok () m' →
      ∃ f', m'.frames = f' :: rest ∧
        ∀ i w, f.locals[i]? = some w → w.isWide = true → i ∉ f.torn →
          f'.locals[i]? = some w ∧ f'.locals[i + 1]? = some .null ∧ i ∉ f'.torn := by
  have paired := h.paired free
  have top {f : Frame} {rest : List Frame} (current : m.frames = f :: rest) : f.Paired :=
    paired f (by rw [show m.thread.frames = f :: rest from current]; exact List.mem_cons_self)
  refine ⟨paired, ?_, ?_⟩
  · intro s kind slot m' f rest current run
    obtain ⟨o, v, f', operands, value, stored, frames⟩ := storeLocal_ok current run
    have stores := Frame.stores_of_setLocal stored
    refine ⟨o, v, f', operands, value, frames, stores.first, fun i w found wide whole => ?_⟩
    exact ⟨stores.fate (top current) found wide whole, stores.mem_torn found wide whole⟩
  · intro s slot delta m' f rest current run
    obtain ⟨v, n, f', held, number, stored, frames⟩ := incrementLocal_ok current run
    exact ⟨f', frames, fun i w => (Frame.stores_of_setLocal stored).increment (top current) held
      number⟩

namespace Sample

/-- A machine that has entered a method with four local variables and performed the first so many
instructions of its code. -/
def performing (code : List UInt8) (count : Nat) : Machine :=
  let entered := Operation.enter cls { method code [] with maxLocals := 4 }
  (entered :: List.replicate count (.instruction 0)).foldl
    (fun m op => (op.perform coreNatives).after {} m) ⟨{}, { id := 0 }⟩

theorem performing_reachable (code : List UInt8) (count : Nat) :
    Reachable coreNatives (performing code count) :=
  (Reachable.fresh {} 0).performed {} _

end Sample

/-- An int that is stored behind the two slots of a long leaves them alone. -/
theorem Reachable.wide_locals_behind :
    let m := Sample.performing [0x0a, 0x3f, 0x08, 0x3d] 3
    ∃ m' f', storeLocal .int 2 {} m = .ok () m' ∧ m'.frames = [f'] ∧
      f'.locals[0]? = some (.long 1) ∧ f'.locals[1]? = some .null := by
  obtain ⟨-, stores, -⟩ := Reachable.wide_locals (fun _ => coreNatives_keep .free _)
    (Sample.performing_reachable [0x0a, 0x3f, 0x08, 0x3d] 3)
  obtain ⟨o, v, f', -, -, frames, -, fates⟩ := stores {} .int 2 _ _ _ rfl rfl
  obtain ⟨fate, -⟩ := fates 0 (.long 1) rfl rfl List.not_mem_nil
  cases fate with
  | kept first second => exact ⟨_, f', rfl, frames, first, second⟩
  | replaced place => cases place
  | cleared place => cases place
  | torn place => cases place

/-- An int that is stored into the second slot of a long leaves the long in the first one. -/
theorem Reachable.wide_locals_torn :
    let m := Sample.performing [0x0a, 0x3f, 0x08, 0x3c] 4
    Reachable coreNatives m ∧ ∃ f, m.frames = [f] ∧
      f.locals[0]? = some (.long 1) ∧ f.locals[1]? = some (.int 5) :=
  ⟨Sample.performing_reachable _ _, _, rfl, rfl, rfl⟩

end JavaMachine
