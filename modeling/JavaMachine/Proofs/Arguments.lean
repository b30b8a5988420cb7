import JavaMachine.Frame
import JavaMachine.Proofs.Descriptors
import Mathlib.Algebra.Ring.Nat
import Mathlib.Data.List.Forall2
import Mathlib.Order.Lattice

/-!
# Arguments in local variables

The slots of a call are counted twice.  How many there are is read off the declared types, with the
number that the class file gives cut down to sixteen bits; where a value goes is counted from the
values that are passed.  The counts agree when the values are as wide as the descriptor says, and
then every call finds room for its arguments, also for more of them than sixteen bits can count.

The layout comes first, as one equation for all lists of values: the values in order, each long or
double with null behind it, and null up to the end (`localsOf_eq_ok_iff`).  Where the `i`-th
argument sits, and that there is nothing in between, is read off this list.
-/

namespace JavaMachine

/-! ## The layout of values -/

namespace Value

/-- The slots that a value takes, with null behind a long or a double. -/
def spread (v : Value) : List Value := v :: List.replicate (v.words - 1) .null

variable {v w : Value} {vs : List Value} {slot : Nat}

theorem words_pos (v : Value) : 0 < v.words := by
  unfold words
  split <;> decide

theorem words_of_wide (wide : v.isWide = true) : v.words = 2 := if_pos wide

theorem words_cases (v : Value) : v.isWide = true ∧ v.words = 2 ∨ v.words = 1 := by
  unfold words
  cases v.isWide <;> simp

@[simp] theorem length_spread (v : Value) : v.spread.length = v.words := by
  have := v.words_pos
  simp only [spread, List.length_cons, List.length_replicate]
  omega

theorem length_flatMap_spread (vs : List Value) :
    (vs.flatMap spread).length = (vs.map words).sum := by
  induction vs with
  | nil => rfl
  | cons v vs ih => simp [ih]

/-- Behind the first slot of a value there is null. -/
theorem spread_succ (within : slot + 1 < v.words) : v.spread[slot + 1]? = some .null := by
  simp only [spread, List.getElem?_cons_succ]
  rw [List.getElem?_replicate, if_pos (by omega)]

/-- The slot of a value holds it, and the slots that it takes besides hold null. -/
theorem flatMap_spread_at {i : Nat} (h : vs[i]? = some v) (rest : List Value) (slot : Nat)
    (within : slot < v.words) :
    (vs.flatMap spread ++ rest)[((vs.take i).map words).sum + slot]? = v.spread[slot]? := by
  obtain ⟨inside, rfl⟩ := List.getElem?_eq_some_iff.mp h
  have parts : vs.flatMap spread ++ rest = (vs.take i).flatMap spread ++
      (vs[i].spread ++ ((vs.drop (i + 1)).flatMap spread ++ rest)) := by
    conv_lhs => rw [← List.take_append_drop i vs, List.drop_eq_getElem_cons inside]
    simp only [List.flatMap_append, List.flatMap_cons, List.append_assoc]
  rw [parts, ← length_flatMap_spread, List.getElem?_append_right (Nat.le_add_right _ _),
    Nat.add_sub_cancel_left, List.getElem?_append_left (by rwa [length_spread])]

/-- What is not in the first slot of a value is null. -/
theorem flatMap_spread_between (h : (vs.flatMap spread)[slot]? = some w)
    (off : ∀ i < vs.length, slot ≠ ((vs.take i).map words).sum) : w = .null := by
  induction vs generalizing slot with
  | nil => simp at h
  | cons v vs ih =>
      rw [List.flatMap_cons] at h
      by_cases front : slot < v.words
      · rw [List.getElem?_append_left (by rwa [length_spread])] at h
        cases slot with
        | zero => exact absurd rfl (off 0 (by simp))
        | succ slot =>
            rw [spread_succ front] at h
            exact (Option.some.inj h).symm
      · rw [List.getElem?_append_right (by rw [length_spread]; omega), length_spread] at h
        refine ih h fun i inside same => off (i + 1) (by simpa using inside) ?_
        simp only [List.take_succ_cons, List.map_cons, List.sum_cons]
        omega

end Value

namespace Frame

variable {m : MethodDecl} {args front : List Value} {locals : Array Value} {room : Nat}

/-- Values are put behind others exactly when there is room for all of them. -/
theorem placeArgs_eq_ok_iff :
    placeArgs (front ++ List.replicate room Value.null).toArray front.length args = .ok locals ↔
      (args.map Value.words).sum ≤ room ∧ locals = (front ++ (args.flatMap Value.spread ++
        List.replicate (room - (args.map Value.words).sum) Value.null)).toArray := by
  induction args generalizing front room with
  | nil => simp [placeArgs, eq_comm]
  | cons v args ih =>
      rw [placeArgs]
      simp only [List.size_toArray, List.length_append, List.length_replicate, List.map_cons,
        List.sum_cons]
      by_cases short : room < v.words
      · rw [if_pos (by omega)]
        exact ⟨nofun, fun ⟨enough, _⟩ => by omega⟩
      · obtain ⟨left, rfl⟩ : ∃ left, room = v.words + left := ⟨room - v.words, by omega⟩
        -- The value takes the first of the free slots, and what was null behind it stays.
        have stored : (front ++ List.replicate (v.words + left) Value.null).toArray.setIfInBounds
            front.length v = (front ++ v.spread ++ List.replicate left Value.null).toArray := by
          obtain ⟨more, same⟩ : ∃ more, v.words = more + 1 :=
            ⟨v.words - 1, by have := v.words_pos; omega⟩
          have free : List.replicate (v.words + left) Value.null =
              .null :: (List.replicate more .null ++ List.replicate left .null) := by
            rw [same, ← List.replicate_add, ← List.replicate_succ]
            congr 1
            omega
          rw [free, List.setIfInBounds_toArray, List.set_append_right _ _ (Nat.le_refl _)]
          simp [Value.spread, same]
        have behind : front.length + v.words = (front ++ v.spread).length := by simp
        rw [if_neg (by omega), stored, behind, ih]
        have same : v.words + left - (v.words + (args.map Value.words).sum) =
            left - (args.map Value.words).sum := by omega
        rw [same]
        simp only [List.flatMap_cons, List.append_assoc, Nat.add_le_add_iff_left]

/-- A call gets its local variables exactly when the values have room in them.  They are then the
values one after the other, each with the slots that it takes, and null behind them. -/
theorem localsOf_eq_ok_iff : localsOf m args = .ok locals ↔
    (args.map Value.words).sum ≤ m.localSlots ∧ locals = (args.flatMap Value.spread ++
      List.replicate (m.localSlots - (args.map Value.words).sum) Value.null).toArray := by
  have blank : Array.replicate m.localSlots Value.null =
      ([] ++ List.replicate m.localSlots Value.null).toArray := by simp
  have run : localsOf m args = placeArgs ([] ++ List.replicate m.localSlots Value.null).toArray
      ([] : List Value).length args := by rw [localsOf, blank]; rfl
  rw [run, placeArgs_eq_ok_iff, List.nil_append]

end Frame

/-! ## The layout that a descriptor declares -/

namespace MethodDecl

variable {m : MethodDecl} {args : List Value} {spec : MethodSpec} {className : String}

/-- The words of the arguments in order, one for a receiver. -/
def argWords (m : MethodDecl) : List Nat :=
  List.replicate m.receiverCount 1 ++ m.type.args.map JType.size

/-- The slot of an argument: the words of the arguments before it. -/
def argSlot (m : MethodDecl) (i : Nat) : Nat := (m.argWords.take i).sum

theorem sum_argWords (m : MethodDecl) : m.argWords.sum = m.argSlots := by
  have folded (types : List JType) (n : Nat) :
      types.foldl (fun n t => n + t.size) n = n + (types.map JType.size).sum := by
    induction types generalizing n with
    | nil => rfl
    | cons t types ih =>
        rw [List.foldl_cons, ih, List.map_cons, List.sum_cons, Nat.add_assoc]
  rw [argWords, argSlots, folded, List.sum_append, List.sum_replicate_nat, Nat.mul_one]

/-- Values that can be passed: as many as a call takes, a receiver of one word, and every other
value of two words exactly when a long or a double is declared. -/
structure Suits (m : MethodDecl) (args : List Value) : Prop where
  /-- There are as many values as a call takes. -/
  count : args.length = m.argCount
  /-- A receiver is not wide. -/
  receiver : ∀ v ∈ args.take m.receiverCount, v.isWide = false
  /-- The other values are wide where the descriptor says so. -/
  declared : List.Forall₂ (fun v t => v.isWide = true ↔ t = .long ∨ t = .double)
    (args.drop m.receiverCount) m.type.args

/-- A value that is wide where its type says so takes the words of the type. -/
theorem words_eq_size {v : Value} {t : JType} (given : t ≠ .void)
    (declared : v.isWide = true ↔ t = .long ∨ t = .double) : v.words = t.size := by
  unfold Value.words
  cases wide : v.isWide <;> cases t <;> simp_all [JType.size]

/-- The values take the words that the descriptor declares. -/
theorem Suits.map_words (suits : m.Suits args) : args.map Value.words = m.argWords := by
  have types := (MethodType.parse_eq_ok_iff.mp m.typed).arguments
  have single : (args.take m.receiverCount).map Value.words =
      List.replicate m.receiverCount 1 := by
    have count := suits.count
    refine List.eq_replicate_iff.mpr ⟨?_, fun n listed => ?_⟩
    · rw [List.length_map, List.length_take]
      exact Nat.min_eq_left (by rw [count, argCount]; omega)
    · obtain ⟨v, inside, rfl⟩ := List.mem_map.mp listed
      simp [Value.words, suits.receiver v inside]
  have sized : (args.drop m.receiverCount).map Value.words = m.type.args.map JType.size := by
    have declared := suits.declared
    generalize args.drop m.receiverCount = others at declared
    revert types
    generalize m.type.args = given at declared
    intro types
    induction declared with
    | nil => rfl
    | cons first _ ih =>
        rw [List.map_cons, List.map_cons, words_eq_size (types _ (by simp)).2 first,
          ih fun t listed => types t (by simp [listed])]
  rw [argWords, ← single, ← sized, ← List.map_append, List.take_append_drop]

theorem Suits.argSlot_eq (suits : m.Suits args) (i : Nat) :
    m.argSlot i = ((args.take i).map Value.words).sum := by
  rw [argSlot, ← suits.map_words, List.map_take]

/-- Every argument sits in its slot, with null in its second slot if it has one, and every other
local variable is null. -/
structure Places (m : MethodDecl) (args : List Value) (locals : Array Value) : Prop where
  /-- An argument sits behind the words of the arguments before it. -/
  placed : ∀ i v, args[i]? = some v → locals[m.argSlot i]? = some v
  /-- A long or a double has a second slot, which holds null. -/
  second : ∀ i v, args[i]? = some v → v.isWide = true →
    locals[m.argSlot i + 1]? = some .null
  /-- A slot in which no argument sits holds null. -/
  vacant : ∀ slot < locals.size, (∀ i < args.length, slot ≠ m.argSlot i) →
    locals[slot]? = some .null

/-- A method has as many slots as were asked for, and never fewer than its arguments take: the
sixteen bits into which their number is squeezed are never the larger number. -/
theorem localSlots_of_build {decl : MethodDecl} (built : spec.build className = .ok decl) :
    decl.localSlots = max (spec.maxLocals.elim 0 UInt16.toNat) decl.argSlots := by
  unfold MethodSpec.build at built
  split at built
  · cases built
  next type typed =>
    cases built
    have larger (a b : UInt16) : (max a b).toNat = max a.toNat b.toNat := by
      change (if a ≤ b then b else a).toNat = _
      split
      next le => exact (Nat.max_eq_right (UInt16.le_iff_toNat_le.mp le)).symm
      next le => exact (Nat.max_eq_left (Nat.le_of_not_le (mt UInt16.le_iff_toNat_le.mpr le))).symm
    have cut (n : Nat) : n.toUInt16.toNat ≤ n := Nat.mod_le n (2 ^ 16)
    simp only [localSlots, larger]
    cases spec.maxLocals with
    | none =>
        simp only [Option.getD_none, Option.elim_none, max_self]
        exact (max_eq_right (cut _)).trans (max_eq_right (Nat.zero_le _)).symm
    | some n =>
        simp only [Option.getD_some, Option.elim_some]
        rw [max_assoc]
        exact congrArg (max n.toNat) (max_eq_right (cut _))

/-- Arguments land in their slots.  Values that suit a method, however it was built and however
many slots they take, always get local variables: as many as the method declares or as its arguments
take, whichever is more, with every value behind the words of those before it and null everywhere
else. -/
theorem localsOf_places {decl : MethodDecl} (built : spec.build className = .ok decl)
    (suits : decl.Suits args) :
    ∃ locals, Frame.localsOf decl args = .ok locals ∧
      locals.size = max decl.maxLocals.toNat decl.argSlots ∧
      locals.size = max (spec.maxLocals.elim 0 UInt16.toNat) decl.argSlots ∧
      decl.Places args locals := by
  have words : (args.map Value.words).sum = decl.argSlots := by
    rw [suits.map_words, sum_argWords]
  have enough : (args.map Value.words).sum ≤ decl.localSlots := by
    rw [words]
    exact le_max_right _ _
  have size : (args.flatMap Value.spread ++ List.replicate
      (decl.localSlots - (args.map Value.words).sum) Value.null).length = decl.localSlots := by
    rw [List.length_append, Value.length_flatMap_spread, List.length_replicate]
    omega
  refine ⟨_, Frame.localsOf_eq_ok_iff.mpr ⟨enough, rfl⟩, size,
    size.trans (localSlots_of_build built), ?_, ?_, ?_⟩
  · intro i v found
    rw [List.getElem?_toArray, suits.argSlot_eq]
    exact Value.flatMap_spread_at found _ 0 v.words_pos
  · intro i v found wide
    have pair : 1 < v.words := by rw [Value.words_of_wide wide]; decide
    rw [List.getElem?_toArray, suits.argSlot_eq, Value.flatMap_spread_at found _ 1 pair]
    exact Value.spread_succ pair
  · intro slot inside off
    obtain ⟨v, found⟩ : ∃ v, (args.flatMap Value.spread ++ List.replicate
        (decl.localSlots - (args.map Value.words).sum) Value.null)[slot]? = some v :=
      ⟨_, List.getElem?_eq_getElem inside⟩
    rw [List.getElem?_toArray, found]
    rw [List.getElem?_append] at found
    split at found
    · rw [Value.flatMap_spread_between found fun i listed => suits.argSlot_eq i ▸ off i listed]
    · rw [(List.mem_replicate.mp (List.mem_of_getElem? found)).2]

namespace Sample

/-- An instance method that takes an int, a long and an int, and asks for two slots only. -/
def mixed : MethodSpec :=
  { name := "m", descriptor := "(IJI)V", flags := 0, maxLocals := some 2 }

/-- The method as its class has it. -/
def mixedDecl : MethodDecl :=
  { name := "m", descriptor := "(IJI)V", flags := ⟨0⟩, className := "A"
    type := ⟨[.int, .long, .int], .void⟩, typed := by rfl
    maxStack := 16, maxLocals := 5, code := .empty, handlers := [] }

/-- Values for a call of it. -/
def mixedArgs : List Value := [.object ⟨0⟩, .int 1, .long 2, .int 3]

end Sample

/-- The last int of the call lies behind both slots of the long, in the fifth slot of five. -/
theorem localsOf_places_mixed :
    Sample.mixed.build "A" = .ok Sample.mixedDecl ∧
      Sample.mixedDecl.Suits Sample.mixedArgs ∧
      ∃ locals, Frame.localsOf Sample.mixedDecl Sample.mixedArgs = .ok locals ∧
        locals.size = 5 ∧ locals[4]? = some (.int 3) ∧ locals[3]? = some .null := by
  have suits : Sample.mixedDecl.Suits Sample.mixedArgs :=
    { count := by decide
      receiver := by simp [Sample.mixedArgs, Sample.mixedDecl, receiverCount, Flags.isStatic,
        Flags.has, Value.isWide]
      declared := .cons (by simp [Value.isWide]) (.cons (by simp [Value.isWide])
        (.cons (by simp [Value.isWide]) .nil)) }
  have built : Sample.mixed.build "A" = .ok Sample.mixedDecl := by rfl
  obtain ⟨locals, run, size, -, places⟩ := localsOf_places built suits
  exact ⟨built, suits, locals, run, size, places.placed 3 _ rfl, places.second 2 _ rfl rfl⟩

end MethodDecl

end JavaMachine
