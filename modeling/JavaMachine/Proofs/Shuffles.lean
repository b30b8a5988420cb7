import JavaMachine.Proofs.Instructions
import JavaMachine.Proofs.Reading
import JavaMachine.Proofs.Unwinding

/-!
# Shuffles of the operand stack

A shuffle takes words from the top, where a long or a double is two words and any other value one.
What it takes has to consist of whole values, first the words on top and then those under them, and
it puts these values back in another order and number.

*Taking.*  Operands are popped until the words are reached (`takeWords_run`), by induction on the
operands from the top one on.  Then they are reached exactly, or one word too many was taken and the
last operand would be cut in half (`Halves`), or the operands of the frame do not suffice.

*Order of the faults.*  The words under the top are asked for only when the top is taken.  So where
a long would be cut in half and the words do not suffice either, it is the cut that is told.
-/

namespace JavaMachine

/-! ## Words -/

/-- The number of words of operands. -/
def wordsOf (os : List Operand) : Nat := (os.map (·.value.words)).sum

@[simp] theorem wordsOf_nil : wordsOf [] = 0 := rfl

@[simp] theorem wordsOf_cons (o : Operand) (os : List Operand) :
    wordsOf (o :: os) = o.value.words + wordsOf os := by
  simp [wordsOf]

@[simp] theorem wordsOf_append (os os' : List Operand) :
    wordsOf (os ++ os') = wordsOf os + wordsOf os' := by
  simp [wordsOf]

theorem Value.words_of_narrow {v : Value} (narrow : ¬v.isWide = true) : v.words = 1 := if_neg narrow

/-- Operands of no words are none. -/
theorem eq_nil_of_wordsOf {os : List Operand} (none : wordsOf os = 0) : os = [] := by
  cases os with
  | nil => rfl
  | cons o os =>
      have := o.value.words_pos
      rw [wordsOf_cons] at none
      omega

/-- Taking so many words from the top would cut a long or a double in half. -/
def Halves (os : List Operand) (words : Nat) : Prop :=
  ∃ below o above, os = below ++ o :: above ∧ o.value.isWide = true ∧ wordsOf above + 1 = words

/-- Words are taken from the top as whole values, or they cut one in half, or they do not suffice. -/
theorem wordsOf_cases (os : List Operand) (words : Nat) :
    (∃ below top, os = below ++ top ∧ wordsOf top = words) ∨ Halves os words ∨
      wordsOf os < words := by
  induction words with
  | zero => exact .inl ⟨os, [], (List.append_nil os).symm, rfl⟩
  | succ n ih =>
      obtain ⟨below, top, rfl, whole⟩ | ⟨below, o, above, rfl, wide, half⟩ | few := ih
      · -- one more value is taken, which is narrow or wide, unless there is none
        obtain rfl | ⟨below, o, rfl⟩ := List.eq_nil_or_concat below
        · exact .inr (.inr (by simp [whole]))
        · rw [List.concat_eq_append, List.append_assoc, List.singleton_append]
          by_cases wide : o.value.isWide = true
          · exact .inr (.inl ⟨below, o, top, rfl, wide, by rw [whole]⟩)
          · refine .inl ⟨below, o :: top, rfl, ?_⟩
            rw [wordsOf_cons, Value.words_of_narrow wide, whole, Nat.add_comm]
      · refine .inl ⟨below, o :: above, rfl, ?_⟩
        rw [wordsOf_cons, Value.words_of_wide wide]
        omega
      · exact .inr (.inr (Nat.lt_succ_of_lt few))

theorem Halves.append {front top : List Operand} {words : Nat} (halves : Halves front words) :
    Halves (front ++ top) (wordsOf top + words) := by
  obtain ⟨below, o, above, rfl, wide, half⟩ := halves
  refine ⟨below, o, above ++ top, by simp, wide, ?_⟩
  rw [wordsOf_append]
  omega

theorem Halves.lt_wordsOf {os : List Operand} {words : Nat} (halves : Halves os words) :
    words < wordsOf os := by
  obtain ⟨below, o, above, rfl, wide, half⟩ := halves
  rw [wordsOf_append, wordsOf_cons, Value.words_of_wide wide]
  omega

/-- What is cut behind whole values from the top lies under them. -/
theorem Halves.of_append {front top : List Operand} {words : Nat}
    (halves : Halves (front ++ top) (wordsOf top + words))
    (whole : ¬Halves (front ++ top) (wordsOf top)) : Halves front words := by
  obtain ⟨below, o, above, same, wide, half⟩ := halves
  have positive : words ≠ 0 := by
    rintro rfl
    exact whole ⟨below, o, above, same, wide, half⟩
  have above_suffix : above <:+ front ++ top := ⟨below ++ [o], by simp [same]⟩
  obtain ⟨z, rfl⟩ | ⟨z, rfl⟩ :=
    List.suffix_or_suffix_of_suffix above_suffix (List.suffix_append front top)
  · -- the top is not longer, since it has not more words
    rw [wordsOf_append] at half
    obtain rfl : z = [] := eq_nil_of_wordsOf (by omega)
    rw [List.nil_append, List.append_cons] at same
    obtain rfl := List.append_cancel_right same
    exact ⟨below, o, [], rfl, wide, by rw [wordsOf_nil]; rw [wordsOf_nil] at half; omega⟩
  · rw [← List.cons_append, ← List.append_assoc] at same
    rw [wordsOf_append] at half
    exact ⟨below, o, z, List.append_cancel_right same, wide, by omega⟩

/-- Words are taken from the top, and then words under them, as whole values, or they cut one in
half, or they do not suffice. -/
theorem wordsOf_cases_under (os : List Operand) (words more : Nat) :
    (∃ below under top, os = below ++ under ++ top ∧ wordsOf top = words ∧ wordsOf under = more) ∨
      (Halves os words ∨ Halves os (words + more)) ∨ wordsOf os < words + more := by
  obtain ⟨front, top, rfl, rfl⟩ | halves | few := wordsOf_cases os words
  · obtain ⟨below, under, rfl, whole⟩ | halves | few := wordsOf_cases front more
    · exact .inl ⟨below, under, top, rfl, rfl, whole⟩
    · exact .inr (.inl (.inr halves.append))
    · refine .inr (.inr ?_)
      rw [wordsOf_append]
      omega
  · exact .inr (.inl (.inl halves))
  · exact .inr (.inr (Nat.lt_add_right more few))

/-! ## Taking words -/

/-- The operands belong to the frame when they lie above the given ones. -/
def Frame.Has (f : Frame) (below : Array Operand) (os : List Operand) : Prop :=
  os ≠ [] → f.stackBase ≤ below.size

namespace Frame.Has

variable {f : Frame} {below : Array Operand} {os os' : List Operand}

theorem front (has : f.Has below (os ++ os')) : f.Has below os :=
  fun some => has fun none => some (List.append_eq_nil_iff.mp none).1

theorem top (has : f.Has below (os ++ os')) : f.Has (below ++ os.toArray) os' := by
  intro some
  have := has fun none => some (List.append_eq_nil_iff.mp none).2
  rw [Array.size_append]
  omega

end Frame.Has

namespace Exec

variable {s : Settings} {m : Machine} {f : Frame} {rest : List Frame}
  {below : Array Operand} {events : Array Event} {pc : Nat}

variable (s) (m) (rest) (events) (pc) in
theorem popOperand_last (own : f.stackBase ≤ below.size) (ys : List Operand) (o : Operand) :
    popOperand s (m.amid f rest (below ++ (ys ++ [o]).toArray) events pc) =
      .ok o (m.amid f rest (below ++ ys.toArray) events pc) := by
  have top : below ++ (ys ++ [o]).toArray = (below ++ ys.toArray).push o := by simp
  have base : f.stackBase ≤ (below ++ ys.toArray).size := by
    rw [Array.size_append]
    omega
  rw [top, popOperand_run o base]

variable (s) (m) (rest) (events) (pc) in
/-- Operands are taken until the words are reached. -/
theorem takeWords_run {xs : List Operand} (own : f.Has below xs) {words : Nat}
    (enough : words ≤ wordsOf xs) (least : ∀ x zs, xs = x :: zs → wordsOf zs < words)
    (taken : List Operand) :
    takeWords words taken s (m.amid f rest (below ++ xs.toArray) events pc) =
      .ok (xs ++ taken, wordsOf xs - words) (m.amid f rest below events pc) := by
  induction xs using List.reverseRecOn generalizing words taken with
  | nil =>
      obtain rfl : words = 0 := Nat.le_zero.mp enough
      simp [takeWords]
  | append_singleton ys o ih =>
      have popped := popOperand_last s m rest events pc (own (by simp)) ys o
      have behind : ∀ x zs, ys = x :: zs → wordsOf zs + o.value.words < words := by
        intro x zs same
        have := least x (zs ++ [o]) (by rw [same, List.cons_append])
        rwa [wordsOf_append, wordsOf_cons, wordsOf_nil] at this
      rw [wordsOf_append, wordsOf_cons, wordsOf_nil] at enough
      match words with
      | 0 =>
          obtain ⟨x, zs, same⟩ := List.exists_cons_of_ne_nil (List.concat_ne_nil o ys)
          exact absurd (least x zs (List.concat_eq_append ▸ same)) (Nat.not_lt_zero _)
      | 1 =>
          have last : ys = [] := by
            cases ys with
            | nil => rfl
            | cons x zs =>
                have := behind x zs rfl
                have := o.value.words_pos
                omega
          subst last
          rw [takeWords, bind_of_ok popped]
          simp
      | n + 2 =>
          rw [takeWords, bind_of_ok popped]
          by_cases wide : o.value.isWide = true
          · have two := Value.words_of_wide wide
            rw [if_pos wide, ih own.front (by omega) fun x zs same => by
              have := behind x zs same
              omega]
            simp [two]
          · have one := Value.words_of_narrow wide
            rw [if_neg wide, ih own.front (by omega) fun x zs same => by
              have := behind x zs same
              omega]
            simp [one]

variable (s) (m) (rest) (events) (pc) in
/-- Operands that do not suffice are taken, and then there is none. -/
theorem takeWords_few {xs : List Operand} (own : f.Has below xs)
    (all : below.size ≤ f.stackBase) {words : Nat} (few : wordsOf xs < words)
    (taken : List Operand) : ∃ m',
    takeWords words taken s (m.amid f rest (below ++ xs.toArray) events pc) =
      .error (.fault .stackUnderflow) m' := by
  induction xs using List.reverseRecOn generalizing words taken with
  | nil =>
      have none : popOperand s (m.amid f rest below events pc) = _ := popOperand_none all
      refine ⟨m.amid f rest below events pc, ?_⟩
      rw [Array.append_empty]
      match words with
      | 0 => cases few
      | 1 | n + 2 => exact bind_of_error none
  | append_singleton ys o ih =>
      have popped := popOperand_last s m rest events pc (own (by simp)) ys o
      have positive := o.value.words_pos
      rw [wordsOf_append, wordsOf_cons, wordsOf_nil] at few
      match words with
      | 0 => cases few
      | 1 => omega
      | n + 2 =>
          rw [takeWords, bind_of_ok popped]
          by_cases wide : o.value.isWide = true
          · have two := Value.words_of_wide wide
            rw [if_pos wide]
            exact ih own.front (by omega) _
          · rw [if_neg wide]
            exact ih own.front (by omega) _

/-- Whole values are taken. -/
theorem popWords_whole {top : List Operand} (own : f.Has below top) :
    popWords (wordsOf top) s (m.amid f rest (below ++ top.toArray) events pc) =
      .ok top (m.amid f rest below events pc) := by
  have taken := takeWords_run s m rest events pc own (Nat.le_refl _) (fun x zs same => by
      have := x.value.words_pos
      rw [same, wordsOf_cons]
      omega) []
  rw [popWords, bind_of_ok taken]
  simp

variable (s) (m) (rest) (events) (pc) in
/-- A value that is cut in half is a fault. -/
theorem popWords_halves {xs : List Operand} (own : f.Has below xs) {words : Nat}
    (halves : Halves xs words) :
    ∃ m', popWords words s (m.amid f rest (below ++ xs.toArray) events pc) =
      .error (.fault (.typeMismatch "category one value" "category two value")) m' := by
  obtain ⟨front, o, above, rfl, wide, half⟩ := halves
  have size := Value.words_of_wide wide
  have taken := takeWords_run s m rest events pc own.top
    (show words ≤ _ by rw [wordsOf_cons]; omega) (fun x zs same => by
      cases same
      omega) []
  have excess : wordsOf (o :: above) - words = 1 := by
    rw [wordsOf_cons]
    omega
  refine ⟨m.amid f rest (below ++ front.toArray) events pc, ?_⟩
  rw [excess] at taken
  have parts : below ++ (front ++ o :: above).toArray =
      below ++ front.toArray ++ (o :: above).toArray := by simp
  rw [popWords, parts, bind_of_ok taken]
  rfl

variable (s) (m) (rest) (events) (pc) in
theorem popWords_few {xs : List Operand} (own : f.Has below xs)
    (all : below.size ≤ f.stackBase) {words : Nat} (few : wordsOf xs < words) :
    ∃ m', popWords words s (m.amid f rest (below ++ xs.toArray) events pc) =
      .error (.fault .stackUnderflow) m' := by
  obtain ⟨m', short⟩ := takeWords_few s m rest events pc own all few []
  exact ⟨m', bind_of_error short⟩

end Exec

/-! ## Shuffles -/

/-- A shuffle. -/
inductive Shuffle where
  | pop
  | pop2
  | dup
  | dupX1
  | dupX2
  | dup2
  | dup2X1
  | dup2X2
  | swap

namespace Shuffle

/-- The opcode. -/
def byte : Shuffle → UInt8
  | pop => 0x57
  | pop2 => 0x58
  | dup => 0x59
  | dupX1 => 0x5a
  | dupX2 => 0x5b
  | dup2 => 0x5c
  | dup2X1 => 0x5d
  | dup2X2 => 0x5e
  | swap => 0x5f

/-- The number of words that are taken from the top. -/
def top : Shuffle → Nat
  | pop | dup | dupX1 | dupX2 | swap => 1
  | pop2 | dup2 | dup2X1 | dup2X2 => 2

/-- The number of words that are taken from under the top. -/
def under : Shuffle → Nat
  | pop | pop2 | dup | dup2 => 0
  | dupX1 | dup2X1 | swap => 1
  | dupX2 | dup2X2 => 2

/-- Copies of operands, made at an address. -/
def copies (address : Nat) (os : List Operand) : List Operand := os.map fun o => ⟨o.value, address⟩

/-- What takes the place of the operands that are taken, at an address. -/
def arrange (w : Shuffle) (address : Nat) (under top : List Operand) : List Operand :=
  match w with
  | pop | pop2 => []
  | dup | dup2 => copies address top ++ top
  | dupX1 | dupX2 | dup2X1 | dup2X2 => copies address top ++ under ++ top
  | swap => top ++ under

/-- Pushes what takes their place. -/
def putBack (w : Shuffle) (under top : List Operand) : Exec Unit :=
  match w with
  | pop | pop2 => pure ()
  | dup | dup2 => do Exec.pushCopies top; Exec.pushBack top
  | dupX1 | dupX2 | dup2X1 | dup2X2 => do
      Exec.pushCopies top
      Exec.pushBack under
      Exec.pushBack top
  | swap => do Exec.pushBack top; Exec.pushBack under

/-- What every shuffle does: it takes the top, then what is under it, and then pushes. -/
def execute (w : Shuffle) : Exec Flow := do
  let top ← Exec.popWords w.top
  let under ← Exec.popWords w.under
  w.putBack under top
  return .next

theorem perform_byte (w : Shuffle) (host : Host) :
    Exec.perform host (Opcode.ofByte w.byte) = w.execute := by
  have plain : Exec.performPlain host (Opcode.ofByte w.byte) = (do
      let top ← Exec.popWords w.top
      let under ← Exec.popWords w.under
      w.putBack under top) := by
    cases w <;> rfl
  have stays : Exec.perform host (Opcode.ofByte w.byte) =
      do Exec.performPlain host (Opcode.ofByte w.byte); return .next := by
    cases w <;> rfl
  rw [stays, plain, execute]
  simp only [bind_assoc]

end Shuffle

namespace Exec

variable {s : Settings} {m : Machine} {f : Frame} {rest : List Frame}
  {operands : Array Operand} {events : Array Event} {pc : Nat}

theorem putBack_run (w : Shuffle) (under top : List Operand) :
    w.putBack under top s (m.amid f rest operands events pc) =
      .ok () (m.amid f rest (operands ++ (w.arrange f.pc under top).toArray) events pc) := by
  have copied (operands : Array Operand) : pushCopies top s (m.amid f rest operands events pc) =
      .ok () (m.amid f rest (operands ++ (Shuffle.copies f.pc top).toArray) events pc) :=
    pushCopies_run top
  have returned (operands : Array Operand) (os : List Operand) :
      pushBack os s (m.amid f rest operands events pc) =
        .ok () (m.amid f rest (operands ++ os.toArray) events pc) := pushBack_run os
  cases w with
  | pop | pop2 => simp [Shuffle.putBack, Shuffle.arrange]
  | dup | dup2 =>
      refine (bind_of_ok (copied operands)).trans ((returned _ top).trans ?_)
      simp [Shuffle.arrange]
  | dupX1 | dupX2 | dup2X1 | dup2X2 =>
      refine (bind_of_ok (copied operands)).trans ((bind_of_ok (returned _ under)).trans ?_)
      refine (returned _ top).trans ?_
      simp [Shuffle.arrange]
  | swap =>
      refine (bind_of_ok (returned operands top)).trans ((returned _ under).trans ?_)
      simp [Shuffle.arrange]

/-- The operands of a thread are those below its frame and those of its frame. -/
theorem operands_split (current : m.thread.frames = f :: rest) :
    m.thread.operands = m.thread.operands.take f.stackBase ++ m.thread.frameOperands.toArray := by
  rw [Thread.frameOperands, Thread.stackBase_of_cons current]
  refine Array.toList_inj.mp ?_
  simp

theorem size_below_le : (m.thread.operands.take f.stackBase).size ≤ f.stackBase := by
  simp

theorem has_frameOperands (current : m.thread.frames = f :: rest) :
    f.Has (m.thread.operands.take f.stackBase) m.thread.frameOperands := by
  intro some
  rw [Thread.frameOperands, Thread.stackBase_of_cons current, Ne, List.drop_eq_nil_iff] at some
  simp at some ⊢
  omega

variable {below : Array Operand}

/-- Whole values are arranged. -/
theorem execute_whole (w : Shuffle) {front under top : List Operand}
    (own : f.Has below (front ++ under ++ top)) (whole : wordsOf top = w.top)
    (whole' : wordsOf under = w.under) :
    w.execute s (m.amid f rest (below ++ (front ++ under ++ top).toArray) events pc) =
      .ok .next (m.amid f rest (below ++ (front ++ w.arrange f.pc under top).toArray) events pc) := by
  have own' : f.Has (below ++ front.toArray ++ under.toArray) top := by
    simpa using own.top
  have parts : below ++ (front ++ under ++ top).toArray =
      below ++ front.toArray ++ under.toArray ++ top.toArray := by simp
  rw [Shuffle.execute, parts, ← whole, ← whole', bind_of_ok (popWords_whole own'),
    bind_of_ok (popWords_whole own.front.top), bind_of_ok (putBack_run w _ _)]
  simp

/-- It does not matter for the fault whether the top is cut or what is under it. -/
theorem execute_halves (w : Shuffle) {os : List Operand}
    (own : f.Has below os)
    (halves : Halves os w.top ∨ Halves os (w.top + w.under)) :
    ∃ m', w.execute s (m.amid f rest (below ++ os.toArray) events pc) =
      .error (.fault (.typeMismatch "category one value" "category two value")) m' := by
  by_cases cut : Halves os w.top
  · obtain ⟨m', failed⟩ := popWords_halves s m rest events pc own cut
    exact ⟨m', bind_of_error failed⟩
  · have lower := halves.resolve_left cut
    obtain ⟨front, top, rfl, whole⟩ | cut' | few := wordsOf_cases os w.top
    · rw [← whole] at lower cut
      obtain ⟨m', failed⟩ := popWords_halves s m rest events pc own.front (lower.of_append cut)
      have parts : below ++ (front ++ top).toArray = below ++ front.toArray ++ top.toArray := by simp
      refine ⟨m', ?_⟩
      rw [Shuffle.execute, ← whole, parts, bind_of_ok (popWords_whole own.top), bind_of_error failed]
    · exact absurd cut' cut
    · exact absurd lower.lt_wordsOf (by omega)

/-- Without a cut, missing words are a fault, whether the top lacks them or what is under it. -/
theorem execute_few (w : Shuffle) {os : List Operand}
    (own : f.Has below os) (all : below.size ≤ f.stackBase)
    (uncut : ¬Halves os w.top) (few : wordsOf os < w.top + w.under) :
    ∃ m', w.execute s (m.amid f rest (below ++ os.toArray) events pc) =
      .error (.fault .stackUnderflow) m' := by
  obtain ⟨front, top, rfl, whole⟩ | cut | short := wordsOf_cases os w.top
  · rw [wordsOf_append] at few
    obtain ⟨m', failed⟩ := popWords_few s m rest events pc own.front all
      (show wordsOf front < w.under by omega)
    have parts : below ++ (front ++ top).toArray = below ++ front.toArray ++ top.toArray := by simp
    refine ⟨m', ?_⟩
    rw [Shuffle.execute, ← whole, parts, bind_of_ok (popWords_whole own.top), bind_of_error failed]
  · exact absurd cut uncut
  · obtain ⟨m', failed⟩ := popWords_few s m rest events pc own all short
    exact ⟨m', bind_of_error failed⟩

theorem step_shuffle (host : Host) (w : Shuffle)
    (current : m.thread.frames = f :: rest) (shown : f.Shows f.pc [w.byte]) :
    step host s m = w.execute s (m.amid f rest
        (m.thread.operands.take f.stackBase ++ m.thread.frameOperands.toArray)
        (m.traced s f w.byte) (f.pc + 1)) := by
  rw [← operands_split current, step, bind_of_ok (fetch_traced current shown), w.perform_byte]

/-- Stack shuffles follow the rules of the categories.  Where the words on top are whole values, and
the words under them as well, a shuffle puts these values back in its order and number, and touches
nothing below.  Where a long or a double would be cut in half, its fault is that of the types.
Where it is not, and the operands of the frame have too few words, its fault is that of the stack.
There is nothing else, so it succeeds exactly in the first case. -/
theorem shuffles_arrange (host : Host) (s : Settings) (w : Shuffle)
    (current : m.thread.frames = f :: rest) (shown : f.Shows f.pc [w.byte]) :
    let os := m.thread.frameOperands
    (∀ below under top, os = below ++ under ++ top → wordsOf top = w.top →
      wordsOf under = w.under → step host s m = .ok .next (m.amid f rest
        (m.thread.operands.take f.stackBase ++ (below ++ w.arrange f.pc under top).toArray)
        (m.traced s f w.byte) (f.pc + 1))) ∧
    (Halves os w.top ∨ Halves os (w.top + w.under) → ∃ m', step host s m =
      .error (.fault (.typeMismatch "category one value" "category two value")) m') ∧
    (¬(Halves os w.top ∨ Halves os (w.top + w.under)) → wordsOf os < w.top + w.under →
      ∃ m', step host s m = .error (.fault .stackUnderflow) m') ∧
    ((∃ flow m', step host s m = .ok flow m') ↔ ∃ below under top, os = below ++ under ++ top ∧
      wordsOf top = w.top ∧ wordsOf under = w.under) := by
  intro os
  have run := step_shuffle (s := s) host w current shown
  have own := has_frameOperands current
  have whole : ∀ below under top, os = below ++ under ++ top → wordsOf top = w.top →
      wordsOf under = w.under → step host s m = .ok .next (m.amid f rest
        (m.thread.operands.take f.stackBase ++ (below ++ w.arrange f.pc under top).toArray)
        (m.traced s f w.byte) (f.pc + 1)) := by
    intro below under top split words more
    have split : m.thread.frameOperands = below ++ under ++ top := split
    rw [run, split]
    exact execute_whole w (split ▸ own) words more
  have halves (cut : Halves os w.top ∨ Halves os (w.top + w.under)) : ∃ m', step host s m =
      .error (.fault (.typeMismatch "category one value" "category two value")) m' :=
    run ▸ execute_halves w own cut
  have few (uncut : ¬(Halves os w.top ∨ Halves os (w.top + w.under)))
      (short : wordsOf os < w.top + w.under) :
      ∃ m', step host s m = .error (.fault .stackUnderflow) m' :=
    run ▸ execute_few w own size_below_le (uncut ∘ .inl) short
  refine ⟨whole, halves, few, ?_, ?_⟩
  · rintro ⟨flow, m', done⟩
    obtain split | cut | short := wordsOf_cases_under os w.top w.under
    · exact split
    · obtain ⟨_, failed⟩ := halves cut
      cases failed.symm.trans done
    · by_cases cut : Halves os w.top ∨ Halves os (w.top + w.under)
      · obtain ⟨_, failed⟩ := halves cut
        cases failed.symm.trans done
      · obtain ⟨_, failed⟩ := few cut short
        cases failed.symm.trans done
  · rintro ⟨below, under, top, split, words, more⟩
    exact ⟨_, _, whole below under top split words more⟩

end Exec

namespace Sample

/-- A machine in front of a shuffle, with operands. -/
def shuffling (w : Shuffle) (os : List Operand) : Machine :=
  ⟨{}, { id := 0, frames := [frame [w.byte, 0xb1] [] 0], operands := os.toArray }⟩

/-- A long alone. -/
def lone : Machine := shuffling .dupX2 [⟨.long 1, 3⟩]

end Sample

namespace Exec

/-- An int is copied under a long, a long is not cut, and nothing is not copied. -/
theorem shuffles_arrange_dupX2 :
    let host : Host := ⟨Engine.reentry [] 0, []⟩
    (∃ m', step host {} (Sample.shuffling .dupX2 [⟨.int 1, 3⟩, ⟨.long 2, 4⟩, ⟨.int 5, 6⟩]) =
        .ok .next m' ∧
      m'.thread.operands = #[⟨.int 1, 3⟩, ⟨.int 5, 0⟩, ⟨.long 2, 4⟩, ⟨.int 5, 6⟩]) ∧
    (∃ m', step host {} Sample.lone =
      .error (.fault (.typeMismatch "category one value" "category two value")) m') ∧
    ∃ m', step host {} (Sample.shuffling .dupX2 []) = .error (.fault .stackUnderflow) m' := by
  intro host
  have shuffled (os : List Operand) := shuffles_arrange (m := Sample.shuffling .dupX2 os) host {}
    .dupX2 rfl ⟨[0xb1], rfl⟩
  obtain ⟨whole, -⟩ := shuffled [⟨.int 1, 3⟩, ⟨.long 2, 4⟩, ⟨.int 5, 6⟩]
  obtain ⟨-, halves, -⟩ := shuffled [⟨.long 1, 3⟩]
  obtain ⟨-, -, few, -⟩ := shuffled []
  refine ⟨⟨_, whole [⟨.int 1, 3⟩] [⟨.long 2, 4⟩] [⟨.int 5, 6⟩] rfl rfl rfl, rfl⟩,
    halves (.inl ⟨[], _, [], rfl, rfl, rfl⟩), few ?_ (by decide)⟩
  rintro (⟨below, o, above, same, -⟩ | ⟨below, o, above, same, -⟩)
  · exact List.append_ne_nil_of_right_ne_nil _ (List.cons_ne_nil _ _) same.symm
  · exact List.append_ne_nil_of_right_ne_nil _ (List.cons_ne_nil _ _) same.symm

/-- The frame has two words, the shuffle needs three, and yet the fault is not that of the stack. -/
theorem shuffle_of_lone_long :
    let host : Host := ⟨Engine.reentry [] 0, []⟩
    wordsOf Sample.lone.thread.frameOperands < Shuffle.dupX2.top + Shuffle.dupX2.under ∧
      ¬∃ m', step host {} Sample.lone = .error (.fault .stackUnderflow) m' := by
  refine ⟨by decide, ?_⟩
  rintro ⟨m', underflow⟩
  cases underflow

end Exec

end JavaMachine
