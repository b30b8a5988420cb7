import JavaMachine.Proofs.Reading
import JavaMachine.Proofs.Unwinding

/-!
# Switches

A switch lies in the code as bytes: its opcode, padding up to a multiple of four, and a table of
numbers of four bytes each.  `Switch` is what such a table says, and `Switch.numbers` is how it is
written, so that a switch can be put into any code at any address.

*Reading.*  A number is read back from the bytes that it is written as, whatever stands around them
(`readI32_run`).

*Choosing.*  A table is entered by the distance of the key from its lowest key, which may be more
than thirty-two bits can hold with a sign; a list of pairs is searched from the front, by induction
on the pairs.

*Branching.*  The chosen offset is relative to the opcode and not to the table.  A target outside
the code is a fault.  So what a switch does depends on its map only, and not on how it is written.
-/

namespace JavaMachine

/-! ## Bytes of the code -/

/-- The four bytes of a number, the most significant first. -/
def bigEndian (n : Int32) : List UInt8 :=
  [(n.toUInt32 >>> 24).toUInt8, (n.toUInt32 >>> 16).toUInt8, (n.toUInt32 >>> 8).toUInt8,
    n.toUInt32.toUInt8]

@[simp] theorem length_bigEndian (n : Int32) : (bigEndian n).length = 4 := rfl

theorem foldl_bigEndian (n : Int32) :
    (bigEndian n).foldl (fun k b => k * 256 + b.toNat) 0 = n.toUInt32.toNat := by
  have small := n.toUInt32.toNat_lt
  simp only [bigEndian, List.foldl_cons, List.foldl_nil, UInt32.toNat_toUInt8,
    UInt32.toNat_shiftRight, UInt32.reduceToNat, Nat.reduceMod, Nat.shiftRight_eq_div_pow]
  omega

namespace Frame

variable {f : Frame} {a : Nat} {n : Int32} {ns : List Int32}

/-- The code has these numbers from an address on. -/
def Lists (f : Frame) (a : Nat) (numbers : List Int32) : Prop :=
  f.Shows a (numbers.flatMap bigEndian)

theorem Lists.head (h : f.Lists a (n :: ns)) : f.Shows a (bigEndian n) :=
  Shows.front _ h

theorem Lists.tail (h : f.Lists a (n :: ns)) : f.Lists (a + 4) ns :=
  Shows.back (bigEndian n) h

theorem Lists.drop (h : f.Lists a ns) {k : Nat} (within : k ≤ ns.length) :
    f.Lists (a + 4 * k) (ns.drop k) := by
  induction k generalizing a ns with
  | zero => exact h
  | succ k ih =>
      cases ns with
      | nil => cases within
      | cons n ns =>
          have behind := ih h.tail (Nat.le_of_succ_le_succ within)
          rwa [Nat.add_assoc, Nat.add_comm 4, ← Nat.mul_succ] at behind

end Frame

/-! ## Numbers and targets -/

namespace Exec

variable {s : Settings} {m : Machine} {f : Frame} {rest : List Frame}
  {operands : Array Operand} {events : Array Event} {pc : Nat} {n : Int32}

/-- A number that stands at the address is read back. -/
theorem readI32_run {ns : List Int32} (listed : f.Lists pc (n :: ns)) :
    readI32 s (m.amid f rest operands events pc) =
      .ok n (m.amid f rest operands events (pc + 4)) := by
  have taken : onFrame (·.readBytes 4) s (m.amid f rest operands events pc) = _ :=
    readBytes_run (bigEndian n) listed.head (by simp [bigEndian])
  rw [foldl_bigEndian, length_bigEndian] at taken
  refine (bind_of_ok taken).trans ?_
  simp

/-- A branch goes to its target, which is relative to the instruction, if that is in the code. -/
theorem branch_run (n : Int32) : branch n s (m.amid f rest operands events pc) =
    if 0 ≤ f.pc + n.toInt ∧ f.pc + n.toInt < f.codeLength then
      .ok () (m.amid f rest operands events (f.pc + n.toInt).toNat)
    else .error (.fault (.codeExhausted (f.pc + n.toInt).toNat f.codeLength))
      (m.amid f rest operands events pc) := by
  split
  next inside =>
    refine amid_moveFrame ?_
    rw [Frame.branch]
    dsimp only
    rw [if_neg (by omega), Frame.jump, if_pos (by show _ < f.codeLength; omega)]
  next outside =>
    have failed : Frame.branch { f with pc, instructionPc := f.pc } n =
        .error (.codeExhausted (f.pc + n.toInt).toNat f.codeLength) := by
      rw [Frame.branch]
      dsimp only
      split
      next negative => rw [Int.toNat_of_nonpos (by omega)]; rfl
      next =>
        rw [Frame.jump, if_neg (by show ¬ _ < f.codeLength; omega)]
        rfl
    exact moveFrame_of_error (m := m.amid f rest operands events pc) rfl failed

end Exec

/-! ## Switches in the code -/

/-- A switch: the offsets of consecutive keys, or the offsets of the keys in a list, and an offset
for every other key. -/
inductive Switch where
  | table (otherwise low high : Int32) (offsets : List Int32) (ordered : low ≤ high)
      (full : (offsets.length : Int) = high.toInt - low.toInt + 1)
  | lookup (otherwise : Int32) (pairs : List (Int32 × Int32)) (few : pairs.length < 2 ^ 31)

namespace Switch

/-- The opcode. -/
def opcode : Switch → UInt8
  | table .. => 0xaa
  | lookup .. => 0xab

/-- The numbers behind the padding. -/
def numbers : Switch → List Int32
  | table otherwise low high offsets .. => otherwise :: low :: high :: offsets
  | lookup otherwise pairs _ =>
      otherwise :: .ofNat pairs.length :: pairs.flatMap fun p => [p.1, p.2]

/-- A key within the bounds has a place in the table. -/
theorem place_lt {low high key : Int32} {offsets : List Int32}
    (full : (offsets.length : Int) = high.toInt - low.toInt + 1)
    (within : low ≤ key ∧ key ≤ high) : (key.toInt - low.toInt).toNat < offsets.length := by
  have above := Int32.le_iff_toInt_le.mp within.1
  have below := Int32.le_iff_toInt_le.mp within.2
  omega

/-- The offset of a key. -/
def offset (key : Int32) : Switch → Int32
  | table otherwise low high offsets _ full =>
      if within : low ≤ key ∧ key ≤ high then
        offsets.get ⟨(key.toInt - low.toInt).toNat, place_lt full within⟩
      else otherwise
  | lookup otherwise pairs _ => ((pairs.find? (·.1 == key)).map (·.2)).getD otherwise

end Switch

/-- At the address of the frame stands a switch: its opcode, padding up to the next multiple of
four, and its numbers. -/
def Frame.Faces (f : Frame) (w : Switch) : Prop :=
  ∃ padding, padding.length < 4 ∧ (f.pc + 1 + padding.length) % 4 = 0 ∧
    f.Shows f.pc (w.opcode :: (padding ++ w.numbers.flatMap bigEndian))

/-- The end of an instruction that branches to a target: it goes on there when the target is in
the code, and ends in the fault that the code is exhausted when it is not.  The operands are left,
and nothing else is changed. -/
structure Machine.Branches (m : Machine) (f : Frame) (rest : List Frame) (operands : Array Operand)
    (target : Int) (r : EStateM.Result Stop Machine Flow) : Prop where
  /-- A target in the code is the next address. -/
  inside : 0 ≤ target ∧ target < f.codeLength →
    ∃ events, r = .ok .next (m.amid f rest operands events target.toNat)
  /-- Another one is a fault. -/
  outside : ¬(0 ≤ target ∧ target < f.codeLength) → ∃ events pc,
    r = .error (.fault (.codeExhausted target.toNat f.codeLength))
      (m.amid f rest operands events pc)

namespace Exec

variable {s : Settings} {m : Machine} {f : Frame} {rest : List Frame}
  {operands below : Array Operand} {events : Array Event} {pc : Nat} {key n : Int32}

/-- The padding of a switch is what is missing to the next multiple of four. -/
theorem skipPadding_run {padding : List UInt8} (few : padding.length < 4)
    (aligned : (f.pc + 1 + padding.length) % 4 = 0)
    (fits : pc + padding.length ≤ f.codeLength) :
    skipPadding s (m.amid f rest operands events pc) =
      .ok () (m.amid f rest operands events (pc + padding.length)) := by
  have missing : switchPadding f.pc = padding.length := by
    rw [switchPadding]
    omega
  refine amid_moveFrame ?_
  dsimp only
  rw [missing]
  exact Frame.advance_of_fits fits

/-- The search finds the offset of the first pair of the key. -/
theorem searchPairs_run {otherwise : Int32} {pairs : List (Int32 × Int32)}
    (listed : f.Lists pc (pairs.flatMap fun p => [p.1, p.2])) :
    ∃ pc', searchPairs key otherwise pairs.length s (m.amid f rest operands events pc) =
      branch (((pairs.find? (·.1 == key)).map (·.2)).getD otherwise) s
        (m.amid f rest operands events pc') := by
  induction pairs generalizing pc with
  | nil => exact ⟨pc, rfl⟩
  | cons p pairs ih =>
      obtain ⟨candidate, offset⟩ := p
      have listed : f.Lists pc (candidate :: offset :: pairs.flatMap fun p => [p.1, p.2]) := listed
      rw [List.length_cons, searchPairs, bind_of_ok (readI32_run listed),
        bind_of_ok (readI32_run listed.tail)]
      by_cases same : candidate = key
      · refine ⟨pc + 4 + 4, ?_⟩
        rw [if_pos same, List.find?_cons_of_pos (by simpa using same)]
        rfl
      · obtain ⟨pc', run⟩ := ih listed.tail.tail
        refine ⟨pc', ?_⟩
        rw [if_neg same, run, List.find?_cons_of_neg (by simpa using same)]

/-- A table branches by the offset in the place of the key. -/
theorem tableSwitch_run {otherwise low high : Int32} {offsets : List Int32}
    (ordered : low ≤ high) (full : (offsets.length : Int) = high.toInt - low.toInt + 1)
    {o : Operand} (own : f.stackBase ≤ below.size) (int : o.value.asInt = .ok key)
    {padding : List UInt8} (few : padding.length < 4)
    (aligned : (f.pc + 1 + padding.length) % 4 = 0)
    (fits : pc + padding.length ≤ f.codeLength)
    (listed : f.Lists (pc + padding.length) (otherwise :: low :: high :: offsets)) :
    ∃ pc', tableSwitch s (m.amid f rest (below.push o) events pc) =
      branch (Switch.offset key (.table otherwise low high offsets ordered full)) s
        (m.amid f rest below events pc') := by
  have sorted : ¬high < low := by
    rw [Int32.lt_iff_toInt_lt]
    have := Int32.le_iff_toInt_le.mp ordered
    omega
  rw [tableSwitch, bind_of_ok (popInt_run own int), bind_of_ok (skipPadding_run few aligned fits),
    bind_of_ok (readI32_run listed), bind_of_ok (readI32_run listed.tail),
    bind_of_ok (readI32_run listed.tail.tail), if_neg sorted]
  have table := listed.tail.tail.tail
  have outside : (key < low || high < key) = true ↔ ¬(low ≤ key ∧ key ≤ high) := by
    simp only [Bool.or_eq_true, decide_eq_true_eq, Int32.lt_iff_toInt_lt, Int32.le_iff_toInt_le]
    omega
  by_cases within : low ≤ key ∧ key ≤ high
  · have place := Switch.place_lt full within
    have entry := table.drop (Nat.le_of_lt place)
    rw [List.drop_eq_getElem_cons place] at entry
    have room := Frame.Shows.fits entry.head (by simp [bigEndian])
    refine ⟨pc + padding.length + 4 + 4 + 4 + 4 * (key.toInt - low.toInt).toNat + 4, ?_⟩
    rw [if_neg (by rwa [outside, not_not]),
      bind_of_ok (amid_advance (Nat.le_of_add_right_le (k := 4) room)),
      bind_of_ok (readI32_run entry), Switch.offset, dif_pos within]
    rfl
  · refine ⟨pc + padding.length + 4 + 4 + 4, ?_⟩
    rw [if_pos (outside.mpr within), Switch.offset, dif_neg within]

/-- A list of pairs branches by the offset of the first pair of the key. -/
theorem lookupSwitch_run {otherwise : Int32} {pairs : List (Int32 × Int32)}
    (small : pairs.length < 2 ^ 31)
    {o : Operand} (own : f.stackBase ≤ below.size) (int : o.value.asInt = .ok key)
    {padding : List UInt8} (few : padding.length < 4)
    (aligned : (f.pc + 1 + padding.length) % 4 = 0)
    (fits : pc + padding.length ≤ f.codeLength)
    (listed : f.Lists (pc + padding.length)
      (otherwise :: .ofNat pairs.length :: pairs.flatMap fun p => [p.1, p.2])) :
    ∃ pc', lookupSwitch s (m.amid f rest (below.push o) events pc) =
      branch (Switch.offset key (.lookup otherwise pairs small)) s
        (m.amid f rest below events pc') := by
  have count : (Int32.ofNat pairs.length).toInt = pairs.length := Int32.toInt_ofNat_of_lt small
  have counted : ¬Int32.ofNat pairs.length < 0 := by
    rw [Int32.lt_iff_toInt_lt, count]
    simp
  rw [lookupSwitch, bind_of_ok (popInt_run own int), bind_of_ok (skipPadding_run few aligned fits),
    bind_of_ok (readI32_run listed), bind_of_ok (readI32_run listed.tail), if_neg counted, count,
    Int.toNat_natCast]
  exact searchPairs_run listed.tail.tail

/-- A branch of an instruction that goes on with the next one. -/
theorem branches_of_branch {x : Exec Unit} {a : Machine} {target : Int}
    (run : ∃ pc, x s a = branch n s (m.amid f rest operands events pc))
    (place : target = f.pc + n.toInt) :
    m.Branches f rest operands target ((do x; return Flow.next : Exec Flow) s a) := by
  obtain ⟨pc, run⟩ := run
  rw [branch_run] at run
  subst place
  constructor
  · intro inside
    rw [if_pos inside] at run
    exact ⟨events, bind_of_ok run⟩
  · intro outside
    rw [if_neg outside] at run
    exact ⟨events, pc, bind_of_error run⟩

end Exec

namespace Exec

variable {m : Machine} {f : Frame} {rest : List Frame} {below : Array Operand} {key : Int32}
  {w : Switch}

/-- A switch branches by the offset of the key. -/
theorem step_switch (host : Host) (s : Settings) (offers : m.Offers f rest below [key])
    (faces : f.Faces w) :
    m.Branches f rest below (f.pc + (w.offset key).toInt) (step host s m) := by
  obtain ⟨current, ⟨os, top, values⟩, own⟩ := offers
  obtain ⟨o, rfl, int⟩ : ∃ o, os = [o] ∧ o.value.asInt = .ok key := by
    cases values with
    | cons int none =>
        cases none
        exact ⟨_, rfl, int⟩
  obtain ⟨padding, few, aligned, shown⟩ := faces
  have opcode : f.Shows f.pc [w.opcode] := shown.front (padding ++ _)
  have behind : f.Shows (f.pc + 1) (padding ++ w.numbers.flatMap bigEndian) :=
    shown.back [w.opcode]
  have listed : f.Lists (f.pc + 1 + padding.length) w.numbers := behind.back padding
  have fits : f.pc + 1 + padding.length ≤ f.codeLength := by
    have whole := shown.fits (List.cons_ne_nil _ _)
    simp only [List.length_cons, List.length_append] at whole
    omega
  obtain ⟨events, fetched⟩ := fetch_run (s := s) current opcode
  rw [top, Array.append_singleton] at fetched
  rw [step, bind_of_ok fetched]
  cases w with
  | table otherwise low high offsets ordered full =>
      exact branches_of_branch (tableSwitch_run ordered full own int few aligned fits listed) rfl
  | lookup otherwise pairs small =>
      exact branches_of_branch (lookupSwitch_run small own int few aligned fits listed) rfl

/-- Switches decode their tables exactly.  At every address and in every code, a switch branches by
the offset that it has for the key, a table of consecutive keys as well as a list of pairs.  So two
switches of one map at one address always branch to the same target. -/
theorem switches_decode :
    (∀ (host : Host) (s : Settings) (w : Switch) {m : Machine} {f : Frame} {rest : List Frame}
      {below : Array Operand} {key : Int32},
      m.Offers f rest below [key] → f.Faces w →
        m.Branches f rest below (f.pc + (w.offset key).toInt) (step host s m)) ∧
    (∀ (host host' : Host) (s s' : Settings) (w w' : Switch) {m m' : Machine} {f f' : Frame}
      {rest rest' : List Frame} {below below' : Array Operand} {key : Int32},
      m.Offers f rest below [key] → m'.Offers f' rest' below' [key] → f.Faces w → f'.Faces w' →
      f.pc = f'.pc → (∀ k, w.offset k = w'.offset k) →
        ∃ target, m.Branches f rest below target (step host s m) ∧
          m'.Branches f' rest' below' target (step host' s' m')) := by
  refine ⟨fun host s w {_ _ _ _ _} offers faces => step_switch host s offers faces, ?_⟩
  intro host host' s s' w w' m m' f f' rest rest' below below' key offers offers' faces faces'
    place same
  have other := step_switch host' s' offers' faces'
  rw [← place, ← same] at other
  exact ⟨_, step_switch host s offers faces, other⟩

end Exec

namespace Sample

/-- The keys one and two and every other key, as a table. -/
def table : Switch := .table 31 1 2 [27, 29] (by decide) (by decide)

/-- The same map as a list of pairs, in the other order. -/
def lookup : Switch := .lookup 31 [(2, 29), (1, 27)] (by decide)

theorem table_offset (k : Int32) : table.offset k = lookup.offset k := by
  by_cases one : k = 1
  · subst one
    rfl
  · by_cases two : k = 2
    · subst two
      rfl
    · have outside : ¬(1 ≤ k ∧ k ≤ 2) := by
        simp only [← Int32.toInt_inj, Int32.le_iff_toInt_le] at *
        have : (1 : Int32).toInt = 1 := rfl
        have : (2 : Int32).toInt = 2 := rfl
        omega
      simp [table, lookup, Switch.offset, outside, Ne.symm one, Ne.symm two]

/-- A frame in front of a switch at the address one. -/
def switching (w : Switch) : Frame :=
  { frame ([0x1a, w.opcode, 0, 0] ++ w.numbers.flatMap bigEndian ++
      [0, 0, 0, 0, 0x04, 0xac, 0x05, 0xac, 0x02, 0xac]) [] 0 with pc := 1 }

theorem switching_faces (w : Switch) : (switching w).Faces w := by
  refine ⟨[0, 0], by decide, by simp [switching], ?_⟩
  exact ⟨[0, 0, 0, 0, 0x04, 0xac, 0x05, 0xac, 0x02, 0xac], rfl⟩

/-- A machine with a key on the stack. -/
def choosing (w : Switch) (key : Int32) : Machine :=
  ⟨{}, { id := 0, frames := [switching w], operands := #[⟨.int key, 0⟩] }⟩

theorem choosing_offers (w : Switch) (key : Int32) :
    (choosing w key).Offers (switching w) [] #[] [key] :=
  ⟨rfl, ⟨[⟨.int key, 0⟩], rfl, .cons rfl .nil⟩, Nat.le_refl 0⟩

end Sample

/-- The key two goes on at the address thirty, in both forms of the switch. -/
theorem Exec.switches_decode_two :
    (∃ events, step ⟨Engine.reentry [] 0, []⟩ {} (Sample.choosing Sample.table 2) =
      .ok .next ((Sample.choosing Sample.table 2).amid (Sample.switching Sample.table) [] #[]
        events 30)) ∧
    ∃ target,
      (Sample.choosing Sample.table 2).Branches (Sample.switching Sample.table) [] #[] target
        (step ⟨Engine.reentry [] 0, []⟩ {} (Sample.choosing Sample.table 2)) ∧
      (Sample.choosing Sample.lookup 2).Branches (Sample.switching Sample.lookup) [] #[] target
        (step ⟨Engine.reentry [] 0, []⟩ {} (Sample.choosing Sample.lookup 2)) := by
  constructor
  · have branches := switches_decode.1 ⟨Engine.reentry [] 0, []⟩ {} Sample.table
      (Sample.choosing_offers Sample.table 2) (Sample.switching_faces _)
    exact branches.inside ⟨by decide, by decide⟩
  · exact switches_decode.2 _ _ _ _ Sample.table Sample.lookup (Sample.choosing_offers _ _)
      (Sample.choosing_offers _ _) (Sample.switching_faces _) (Sample.switching_faces _) rfl
      Sample.table_offset

end JavaMachine
