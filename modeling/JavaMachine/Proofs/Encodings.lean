import JavaMachine.Proofs.Reading
import JavaMachine.Proofs.Unwinding

/-!
# Encodings of local variable accesses

A local variable is loaded, stored, incremented or returned through, and each of these can be
written in the code in more than one way: with a slot of two bytes behind a wide mark, with a slot
of one byte if the slot is below 256, and without a slot if an opcode names it.
`LocalAccess.Encodes` lists the ways, one constructor for each route of the decoder.

*Decoding.*  Every way leads to what the access does (`LocalAccess.perform`), with the next address
behind the bytes (`performPlain_encoded`).  The cases are those of `Encodes`.

*Recoding.*  What an access does depends on the locals and the operands, but neither on the code
nor on the next address.  So it can be exchanged with a change of these (`Commutes`), and nothing
but these is different between two ways.  A return from a subroutine alone looks at the code, at its
length, since its target must be inside.
-/

namespace JavaMachine

/-! ## Accesses and how they are written -/

/-- The place of a kind in the order of the opcodes. -/
def LocalKind.place : LocalKind → UInt8
  | int => 0
  | long => 1
  | float => 2
  | double => 3
  | reference => 4

/-- What an instruction does with a local variable. -/
inductive LocalAccess where
  | load (kind : LocalKind) (slot : UInt16)
  | store (kind : LocalKind) (slot : UInt16)
  | increment (slot : UInt16) (delta : Int16)
  /-- A return from a subroutine, to the address in the slot. -/
  | ret (slot : UInt16)

namespace LocalAccess

/-- The bytes that an access can be written as. -/
inductive Encodes : LocalAccess → List UInt8 → Prop
  | loadWide (kind : LocalKind) (slot : UInt16) :
      Encodes (load kind slot) (0xc4 :: (0x15 + kind.place) :: twoBytes slot)
  | load (kind : LocalKind) (slot : UInt8) :
      Encodes (load kind slot.toUInt16) [0x15 + kind.place, slot]
  | loadAt (kind : LocalKind) (n : Fin 4) :
      Encodes (load kind (.ofNat n)) [0x1a + 4 * kind.place + .ofNat n]
  | storeWide (kind : LocalKind) (slot : UInt16) :
      Encodes (store kind slot) (0xc4 :: (0x36 + kind.place) :: twoBytes slot)
  | store (kind : LocalKind) (slot : UInt8) :
      Encodes (store kind slot.toUInt16) [0x36 + kind.place, slot]
  | storeAt (kind : LocalKind) (n : Fin 4) :
      Encodes (store kind (.ofNat n)) [0x3b + 4 * kind.place + .ofNat n]
  | incrementWide (slot : UInt16) (delta : Int16) :
      Encodes (increment slot delta) (0xc4 :: 0x84 :: (twoBytes slot ++ twoBytes delta.toUInt16))
  | increment (slot : UInt8) (delta : Int8) :
      Encodes (increment slot.toUInt16 delta.toInt16) [0x84, slot, delta.toUInt8]
  | retWide (slot : UInt16) : Encodes (ret slot) (0xc4 :: 0xa9 :: twoBytes slot)
  | ret (slot : UInt8) : Encodes (ret slot.toUInt16) [0xa9, slot]

/-- Whether an access goes on elsewhere than behind its bytes. -/
def returns : LocalAccess → Bool
  | ret _ => true
  | _ => false

/-- What an access does once its bytes are read. -/
def perform : LocalAccess → Exec Unit
  | load kind slot => Exec.loadLocal kind slot.toNat
  | store kind slot => Exec.storeLocal kind slot.toNat
  | increment slot delta => Exec.incrementLocal slot.toNat delta.toInt32
  | ret slot => Exec.returnSubroutine slot.toNat

/-- The same as an instruction. -/
def execute (a : LocalAccess) : Exec Flow := do
  a.perform
  return .next

end LocalAccess

/-! ## Decoding -/

namespace Opcode

theorem ofByte_load (kind : LocalKind) : ofByte (0x15 + kind.place) = .load kind := by
  cases kind <;> rfl

theorem ofByte_loadAt (kind : LocalKind) :
    ∀ n : Fin 4, ofByte (0x1a + 4 * kind.place + .ofNat n) = .loadAt kind n
  | 0 | 1 | 2 | 3 => by cases kind <;> rfl

theorem ofByte_store (kind : LocalKind) : ofByte (0x36 + kind.place) = .store kind := by
  cases kind <;> rfl

theorem ofByte_storeAt (kind : LocalKind) :
    ∀ n : Fin 4, ofByte (0x3b + 4 * kind.place + .ofNat n) = .storeAt kind n
  | 0 | 1 | 2 | 3 => by cases kind <;> rfl

end Opcode

namespace Exec

variable {s : Settings} {m : Machine} {f : Frame} {rest : List Frame}
  {operands : Array Operand} {events : Array Event} {pc : Nat}

theorem readSlot_run {slot : UInt8} (shown : f.Shows pc [slot]) :
    readSlot s (m.amid f rest operands events pc) =
      .ok slot.toUInt16.toNat (m.amid f rest operands events (pc + 1)) := by
  rw [readSlot, bind_of_ok (readU8_run shown), UInt8.toNat_toUInt16]
  rfl

/-- Behind a wide mark the opcode and its slot are read. -/
theorem performWide_run {byte : UInt8} {slot : UInt16} (more : List UInt8)
    (shown : f.Shows pc (byte :: (twoBytes slot ++ more))) :
    performWide s (m.amid f rest operands events pc) =
      (match Opcode.ofByte byte with
        | .load kind => loadLocal kind slot.toNat
        | .store kind => storeLocal kind slot.toNat
        | .ret => returnSubroutine slot.toNat
        | .increment => do incrementLocal slot.toNat (← readI16).toInt32
        | _ => do fail (.unknownOpcode byte (← frame).instructionPc))
      s (m.amid f rest operands events (pc + 1 + 2)) := by
  have behind : f.Shows (pc + 1) (twoBytes slot ++ more) := shown.back [byte]
  rw [performWide, bind_of_ok (readU8_run shown.head)]
  exact bind_of_ok (readU16_run (behind.front more))

/-- Whichever way an access is written, it is done behind its bytes. -/
theorem performPlain_encoded (host : Host) {a : LocalAccess} {byte : UInt8} {more : List UInt8}
    (encoded : a.Encodes (byte :: more)) (shown : f.Shows pc more) :
    performPlain host (Opcode.ofByte byte) s (m.amid f rest operands events pc) =
      a.perform s (m.amid f rest operands events (pc + more.length)) := by
  have named (n : Fin 4) : (UInt16.ofNat n).toNat = n :=
    UInt16.toNat_ofNat_of_lt (n.isLt.trans (by decide))
  cases encoded with
  | loadWide kind slot =>
      refine (performWide_run [] shown).trans ?_
      rw [Opcode.ofByte_load]
      rfl
  | load kind slot =>
      rw [Opcode.ofByte_load]
      exact bind_of_ok (readSlot_run shown)
  | loadAt kind n =>
      rw [Opcode.ofByte_loadAt, LocalAccess.perform, named]
      rfl
  | storeWide kind slot =>
      refine (performWide_run [] shown).trans ?_
      rw [Opcode.ofByte_store]
      rfl
  | store kind slot =>
      rw [Opcode.ofByte_store]
      exact bind_of_ok (readSlot_run shown)
  | storeAt kind n =>
      rw [Opcode.ofByte_storeAt, LocalAccess.perform, named]
      rfl
  | incrementWide slot delta =>
      refine (performWide_run _ shown).trans ?_
      have amount : f.Shows (pc + 1 + 2) (twoBytes delta.toUInt16) :=
        (shown.back [0x84]).back (twoBytes slot)
      have read : readI16 s (m.amid f rest operands events (pc + 1 + 2)) =
          .ok delta (m.amid f rest operands events (pc + 1 + 2 + 2)) :=
        bind_of_ok (readU16_run amount)
      exact bind_of_ok read
  | increment slot delta =>
      have amount : f.Shows (pc + 1) [delta.toUInt8] := shown.back [slot]
      have read : readI8 s (m.amid f rest operands events (pc + 1)) =
          .ok delta (m.amid f rest operands events (pc + 1 + 1)) := bind_of_ok (readU8_run amount)
      refine (bind_of_ok (readSlot_run shown.head)).trans ?_
      refine (bind_of_ok read).trans ?_
      rw [LocalAccess.perform, Int8.toInt32_toInt16]
      rfl
  | retWide slot => exact performWide_run [] shown
  | ret slot => exact bind_of_ok (readSlot_run shown)

/-- So the whole instruction is what the access does, from behind its bytes on. -/
theorem step_encoded (host : Host) {a : LocalAccess} {byte : UInt8} {more : List UInt8}
    (current : m.thread.frames = f :: rest) (encoded : a.Encodes (byte :: more))
    (shown : f.Shows f.pc (byte :: more)) :
    step host s m = a.execute s
      (m.amid f rest m.thread.operands (m.traced s f byte) (f.pc + (byte :: more).length)) := by
  have stays : perform host (Opcode.ofByte byte) =
      do performPlain host (Opcode.ofByte byte); return .next := by
    cases encoded with
    | load kind slot => rw [Opcode.ofByte_load]; rfl
    | loadAt kind n => rw [Opcode.ofByte_loadAt]; rfl
    | store kind slot => rw [Opcode.ofByte_store]; rfl
    | storeAt kind n => rw [Opcode.ofByte_storeAt]; rfl
    | _ => rfl
  rw [step, bind_of_ok (fetch_traced current shown.head), stays]
  have behind : f.pc + 1 + more.length = f.pc + (byte :: more).length := by
    rw [List.length_cons]
    omega
  have done : performPlain host (Opcode.ofByte byte) s
      (m.amid f rest m.thread.operands (m.traced s f byte) (f.pc + 1)) = _ :=
    performPlain_encoded host encoded (shown.back [byte])
  exact bind_of_same (behind ▸ done)

end Exec

/-! ## Recoding -/

/-- The frame with other code and another next address. -/
def Frame.recoded (f : Frame) (code : ByteArray) (pc : Nat) : Frame :=
  { f with method := { f.method with code }, pc }

/-- The thread with other code in its current frame, and another next address there. -/
def Thread.recoded (t : Thread) (code : ByteArray) (pc : Nat) : Thread :=
  { t with frames := t.frames.modifyHead (·.recoded code pc) }

/-- The machine with other code in its current frame, another next address there, and other
reports. -/
def Machine.recoded (m : Machine) (code : ByteArray) (pc : Nat) (events : Array Event) : Machine :=
  { world := { m.world with events }, thread := m.thread.recoded code pc }

/-- The next address of the current frame. -/
def Machine.nextPc (m : Machine) : Nat := (m.thread.frames.head?.map Frame.pc).getD 0

namespace Exec

/-- The end of a computation with a changed machine. -/
def atEnd {α : Type} (change : Machine → Machine) :
    EStateM.Result Stop Machine α → EStateM.Result Stop Machine α
  | .ok a m => .ok a (change m)
  | .error stop m => .error stop (change m)

/-- A computation can be exchanged with a change of the machine. -/
def Commutes {α : Type} (change : Machine → Machine) (x : Exec α) : Prop :=
  ∀ s m, x s (change m) = atEnd change (x s m)

namespace Commutes

variable {α β : Type} {change : Machine → Machine} {x : Exec α} {g : α → Exec β}

theorem pure (a : α) : Commutes change (Pure.pure a : Exec α) := fun _ _ => rfl

theorem ofExcept (r : Except Fault α) : Commutes change (ofExcept r) := by
  cases r with
  | ok a => exact .pure a
  | error e => exact fun _ _ => rfl

theorem bind (hx : Commutes change x) (hg : ∀ a, Commutes change (g a)) :
    Commutes change (x >>= g) := by
  intro s m
  have first := hx s m
  cases run : x s m with
  | ok a mid =>
      rw [run] at first
      rw [bind_of_ok first, bind_of_ok run]
      exact hg a s mid
  | error stop mid =>
      rw [run] at first
      rw [bind_of_error first, bind_of_error run]
      rfl

variable {code : ByteArray} {pc : Nat} {events : Array Event}

/-- What is read of the current frame may be anything but its code and its next address. -/
theorem frame {g : Frame → Exec α} (same : ∀ f : Frame, g (f.recoded code pc) = g f)
    (hg : ∀ f, Commutes (·.recoded code pc events) (g f)) :
    Commutes (·.recoded code pc events) (Exec.frame >>= g) := by
  intro s m
  cases frames : m.thread.frames with
  | nil =>
      have recoded : (m.recoded code pc events).thread.frames = [] := by
        simp [Machine.recoded, Thread.recoded, frames]
      rw [bind_of_error (frame_of_nil recoded), bind_of_error (frame_of_nil frames)]
      rfl
  | cons f rest =>
      have recoded : (m.recoded code pc events).thread.frames = f.recoded code pc :: rest := by
        simp [Machine.recoded, Thread.recoded, frames]
      rw [bind_of_ok (frame_of_cons recoded), bind_of_ok (frame_of_cons frames), same]
      exact hg f s m

theorem onThread {g : Thread → Except Fault (α × Thread)}
    (same : ∀ t, g (t.recoded code pc) = (g t).map fun r => (r.1, r.2.recoded code pc)) :
    Commutes (·.recoded code pc events) (onThread g) := by
  intro s m
  have recoded : g (m.recoded code pc events).thread = _ := same m.thread
  cases run : g m.thread with
  | ok r =>
      rw [run] at recoded
      rw [onThread_of_ok recoded, onThread_of_ok run]
      rfl
  | error e =>
      rw [run] at recoded
      rw [onThread_of_error recoded, onThread_of_error run]
      rfl

theorem popOperand : Commutes (·.recoded code pc events) popOperand := by
  refine onThread fun t => ?_
  have depth : (t.recoded code pc).operandDepth = t.operandDepth := by
    rw [Thread.operandDepth, Thread.operandDepth, Thread.stackBase, Thread.stackBase,
      Thread.recoded]
    cases t.frames <;> rfl
  have operands : (t.recoded code pc).operands = t.operands := rfl
  rw [Thread.popOperand, Thread.popOperand, depth, operands]
  by_cases none : t.operandDepth = 0
  · rw [if_pos none, if_pos none]
    rfl
  · rw [if_neg none, if_neg none]
    cases t.operands.back? <;> rfl

theorem push (v : Value) : Commutes (·.recoded code pc events) (push v) := by
  intro s m
  have address : (m.recoded code pc events).thread.instructionPc = m.thread.instructionPc := by
    rw [Thread.instructionPc, Thread.instructionPc, Machine.recoded, Thread.recoded]
    cases m.thread.frames <;> rfl
  rw [Exec.push, modifyThread_run, modifyThread_run, Thread.push, Thread.push, address]
  rfl

theorem moveFrame {g : Frame → Except Fault Frame}
    (same : ∀ f, g (f.recoded code pc) = (g f).map (·.recoded code pc)) :
    Commutes (·.recoded code pc events) (moveFrame g) := by
  unfold Exec.moveFrame onFrame
  refine onThread fun t => ?_
  rw [Thread.frame, Thread.frame, Thread.recoded]
  cases frames : t.frames with
  | nil => rfl
  | cons f rest =>
      simp only [List.modifyHead_cons, Bind.bind, Except.bind, same]
      cases g f with
      | error e => rfl
      | ok f' =>
          simp only [Thread.setFrame, frames]
          rfl

theorem setLocal (slot : Nat) (v : Value) :
    Commutes (·.recoded code pc events) (Exec.moveFrame (·.setLocal slot v)) := by
  refine moveFrame fun f => ?_
  unfold Frame.setLocal
  by_cases outside : f.locals.size < slot + v.words
  · rw [if_pos outside]
    exact if_pos outside
  · rw [if_neg outside]
    exact if_neg outside

end Commutes

end Exec

namespace LocalAccess

variable {s : Settings} {m : Machine} {f : Frame} {rest : List Frame} {code : ByteArray} {pc : Nat}
  {events : Array Event} {a : LocalAccess}

/-- Loads, stores and increments do not look at the code. -/
theorem perform_commutes (stays : a.returns = false) :
    Exec.Commutes (·.recoded code pc events) a.perform := by
  cases a with
  | load kind slot =>
      refine .frame (fun _ => rfl) fun f => .bind (.ofExcept _) fun v => ?_
      exact .bind (.ofExcept _) .push
  | store kind slot =>
      refine .bind (.bind .popOperand fun o => .pure o.value) fun v => ?_
      exact .bind (.ofExcept _) (.setLocal slot.toNat)
  | increment slot delta =>
      refine .frame (fun _ => rfl) fun f => .bind (.ofExcept _) fun v => ?_
      exact .bind (.ofExcept _) fun n => .setLocal slot.toNat _
  | ret slot => cases stays

/-- An access does the same in the code of a frame and in another one.  Only for a return from a
subroutine this takes something: its target is inside of both, or they are of one length. -/
def Suits (a : LocalAccess) (f : Frame) (code : ByteArray) : Prop :=
  match a with
  | ret slot => code.size = f.codeLength ∨
      ∀ target, f.getLocal slot.toNat >>= Value.asReturnAddress = .ok target →
        target < f.codeLength ∧ target < code.size
  | _ => True

/-- The end of an access with other code and other reports.  The access goes on at the given
address, unless it goes on elsewhere by itself. -/
def placed (a : LocalAccess) (code : ByteArray) (pc : Nat) (events : Array Event) :
    EStateM.Result Stop Machine Flow → EStateM.Result Stop Machine Flow
  | .ok flow m => .ok flow (m.recoded code (if a.returns then m.nextPc else pc) events)
  | .error stop m => .error stop (m.recoded code pc events)

/-- A return from a subroutine goes to the address in its slot, if that is in the code. -/
theorem returnSubroutine_run (current : m.thread.frames = f :: rest) (slot : Nat) :
    Exec.returnSubroutine slot s m =
      match f.getLocal slot >>= Value.asReturnAddress with
      | .ok target =>
          if target < f.codeLength then
            .ok () { m with thread := { m.thread with frames := { f with pc := target } :: rest } }
          else .error (.fault (.codeExhausted target f.codeLength)) m
      | .error e => .error (.fault e) m := by
  rw [Exec.returnSubroutine, Exec.bind_of_ok (Exec.frame_of_cons current)]
  cases f.getLocal slot with
  | error e => rfl
  | ok v =>
      refine (Exec.bind_of_ok (a := v) rfl).trans ?_
      show _ = match v.asReturnAddress with | .ok target => _ | .error e => _
      cases v.asReturnAddress with
      | error e => rfl
      | ok target =>
          refine (Exec.bind_of_ok (a := target) rfl).trans ?_
          by_cases inside : target < f.codeLength
          · rw [Exec.moveFrame_of_ok current (if_pos inside)]
            exact (if_pos inside).symm
          · rw [Exec.moveFrame_of_error current (if_neg inside)]
            exact (if_neg inside).symm

/-- So it does the same in every code that suits it. -/
theorem execute_ret (current : m.thread.frames = f :: rest) {slot : UInt16}
    (suits : (ret slot).Suits f code) : (ret slot).execute s (m.recoded code pc events) =
      (ret slot).placed code pc events ((ret slot).execute s m) := by
  have recoded : (m.recoded code pc events).thread.frames = f.recoded code pc :: rest := by
    simp [Machine.recoded, Thread.recoded, current]
  have here := returnSubroutine_run (s := s) current slot.toNat
  have there := returnSubroutine_run (s := s) recoded slot.toNat
  have same : (f.recoded code pc).getLocal slot.toNat = f.getLocal slot.toNat := rfl
  rw [same] at there
  cases read : f.getLocal slot.toNat >>= Value.asReturnAddress with
  | error e =>
      rw [read] at here there
      rw [execute, perform, Exec.bind_of_error here, Exec.bind_of_error there]
      rfl
  | ok target =>
      rw [read] at here there
      dsimp only at here there
      by_cases inside : target < f.codeLength
      · have inside' : target < (f.recoded code pc).codeLength := by
          obtain size | both := suits
          · exact Nat.lt_of_lt_of_eq inside size.symm
          · exact (both target read).2
        rw [if_pos inside] at here
        rw [if_pos inside'] at there
        rw [execute, perform, Exec.bind_of_ok here, Exec.bind_of_ok there]
        rfl
      · have size : (f.recoded code pc).codeLength = f.codeLength := by
          obtain size | both := suits
          · exact size
          · exact absurd (both target read).1 inside
        rw [if_neg inside] at here
        rw [size, if_neg inside] at there
        rw [execute, perform, Exec.bind_of_error here, Exec.bind_of_error there]
        rfl

theorem execute_recoded (current : m.thread.frames = f :: rest) (suits : a.Suits f code) :
    a.execute s (m.recoded code pc events) = a.placed code pc events (a.execute s m) := by
  cases stays : a.returns with
  | false =>
      have commutes : Exec.Commutes (·.recoded code pc events) a.execute :=
        (perform_commutes stays).bind fun _ => .pure _
      rw [commutes s m]
      cases a.execute s m with
      | ok flow mid => simp [placed, Exec.atEnd, stays]
      | error stop mid => rfl
  | true =>
      obtain ⟨slot, rfl⟩ : ∃ slot, a = ret slot := by
        cases a with
        | ret slot => exact ⟨slot, rfl⟩
        | _ => cases stays
      exact execute_ret current suits

end LocalAccess

namespace Exec

variable {s : Settings} {m : Machine} {f : Frame} {rest : List Frame} {code : ByteArray}
  {a : LocalAccess} {byte byte' : UInt8} {more more' : List UInt8}

/-- The encodings of an access to a local variable agree.  Take a machine in front of one of them,
and the same machine with other code and another encoding at that address.  Both execute what the
access does from one and the same machine, so they give the same answer or fault, and leave the same
locals, operands and everything else.  Only the next address differs, which is the one behind the
bytes, and the mnemonic in a trace.  A return from a subroutine goes to the same target, provided
that both codes reach up to it or are of one length. -/
theorem encodings_agree (host host' : Host) (s : Settings) (current : m.thread.frames = f :: rest)
    (encoded : a.Encodes (byte :: more)) (shown : f.Shows f.pc (byte :: more))
    (encoded' : a.Encodes (byte' :: more'))
    (shown' : (f.recoded code f.pc).Shows f.pc (byte' :: more'))
    (suits : a.Suits f code) :
    let start := m.amid f rest m.thread.operands m.world.events f.pc
    step host s m = a.placed f.method.code (f.pc + (byte :: more).length) (m.traced s f byte)
      (a.execute s start) ∧
    step host' s (m.recoded code f.pc m.world.events) =
      a.placed code (f.pc + (byte' :: more').length) (m.traced s f byte') (a.execute s start) := by
  intro start
  have recoded : (m.recoded code f.pc m.world.events).thread.frames =
      f.recoded code f.pc :: rest := by
    simp [Machine.recoded, Thread.recoded, current]
  constructor
  · have suited : a.Suits f f.method.code := by
      cases a with
      | ret slot => exact .inl rfl
      | _ => trivial
    rw [step_encoded host current encoded shown]
    exact LocalAccess.execute_recoded (m := start) rfl suited
  · rw [step_encoded host' recoded encoded' shown']
    exact LocalAccess.execute_recoded (m := start) rfl suits

end Exec

namespace Sample

/-- A frame in front of a load of its third local variable. -/
def loader : Frame := { frame [0x1c, 0xac] [] 0 with locals := #[.int 5, .int 6, .int 7] }

/-- A machine with this frame. -/
def loading : Machine := ⟨{}, { id := 0, frames := [loader] }⟩

/-- The machine with other code. -/
def loadingBy (code : List UInt8) : Machine := loading.recoded ⟨code.toArray⟩ 0 #[]

/-- The operands and the next address at the end of an instruction. -/
def loaded : EStateM.Result Stop Machine Flow → Option (List Operand × Nat)
  | .ok _ m => some (m.thread.operands.toList, m.nextPc)
  | .error _ _ => none

end Sample

namespace Exec

/-- The third local variable is loaded in three ways. -/
theorem encodings_agree_load :
    let host : Host := ⟨Engine.reentry [] 0, []⟩
    Sample.loaded (step host {} Sample.loading) = some ([⟨.int 7, 0⟩], 1) ∧
    Sample.loaded (step host {} (Sample.loadingBy [0x15, 2, 0xac])) = some ([⟨.int 7, 0⟩], 2) ∧
    Sample.loaded (step host {} (Sample.loadingBy [0xc4, 0x15, 0, 2, 0xac])) =
      some ([⟨.int 7, 0⟩], 4) := by
  intro host
  have current : Sample.loading.thread.frames = [Sample.loader] := rfl
  have shown : (Sample.loader.recoded ⟨#[0x15, 2, 0xac]⟩ 0).Shows 0 [0x15, 2] := ⟨[0xac], rfl⟩
  have shown' : (Sample.loader.recoded ⟨#[0xc4, 0x15, 0, 2, 0xac]⟩ 0).Shows 0 [0xc4, 0x15, 0, 2] :=
    ⟨[0xac], rfl⟩
  have short := encodings_agree host host {} current (.loadAt .int 2) ⟨[0xac], rfl⟩
    (.load .int 2) shown trivial
  have wide := encodings_agree host host {} current (.loadAt .int 2) ⟨[0xac], rfl⟩
    (.loadWide .int 2) shown' trivial
  exact ⟨congrArg Sample.loaded short.1, congrArg Sample.loaded short.2,
    congrArg Sample.loaded wide.2⟩

end Exec

end JavaMachine
