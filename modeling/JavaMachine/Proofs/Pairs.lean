import JavaMachine.Proofs.Arguments

/-!
# The two slots of a long or a double

A long or a double takes two local variables, and null stands in the second one.  A store of a long
or a double clears its own second slot.  It does not look at the slot in front, so any other value
than null that is stored into a second slot leaves the first one as it is.

`Frame.Stores` says once what a store does to every slot.  From it follow both sides: what becomes
of each long and double that was there (`Fate`), and that every one that is there afterwards has a
second slot, which holds null unless a store into it was noted down (`Frame.Paired`).
-/

namespace JavaMachine

namespace Frame

variable {f f' : Frame} {index i : Nat} {v w : Value}

/-- Every long and double among the local variables has a second slot, and unless that was stored
over, it holds null. -/
def Paired (f : Frame) : Prop :=
  ∀ i w, f.locals[i]? = some w → w.isWide = true →
    i + 1 < f.locals.size ∧ (i ∉ f.torn → f.locals[i + 1]? = some .null)

/-! ## Stores -/

/-- The second frame is the first one with a value stored at a slot. -/
structure Stores (f : Frame) (index : Nat) (v : Value) (f' : Frame) : Prop where
  /-- The value has its slots. -/
  fits : index + v.words ≤ f.locals.size
  /-- There are as many slots as before. -/
  size : f'.locals.size = f.locals.size
  /-- The value is in its slot. -/
  first : f'.locals[index]? = some v
  /-- Null is in the second slot of a long or a double. -/
  second : v.isWide = true → f'.locals[index + 1]? = some .null
  /-- The other slots are what they were. -/
  others : ∀ i, i < index ∨ index + v.words ≤ i → f'.locals[i]? = f.locals[i]?
  /-- What had lost its second slot and is not stored over is noted down as before.  Besides, there
  is only a long or a double that stands in front of the slot. -/
  torn : ∀ i, i ∈ f'.torn ↔ (i < index ∨ index + v.words ≤ i) ∧ i ∈ f.torn ∨
    index = i + 1 ∧ v.isNull = false ∧ ∃ w, f.locals[i]? = some w ∧ w.isWide = true

theorem tears_iff : f.tears index v = true ↔
    v.isNull = false ∧ 0 < index ∧ ∃ w, f.locals[index - 1]? = some w ∧ w.isWide = true := by
  simp [tears, Option.any_eq_true, and_assoc]

theorem mem_tornBy : i ∈ f.tornBy index v ↔
    (i < index ∨ index + v.words ≤ i) ∧ i ∈ f.torn ∨
      index = i + 1 ∧ v.isNull = false ∧ ∃ w, f.locals[i]? = some w ∧ w.isWide = true := by
  have left : i ∈ (f.torn.filter fun i => i < index || index + v.words ≤ i) ↔
      (i < index ∨ index + v.words ≤ i) ∧ i ∈ f.torn := by
    simp [and_comm]
  have front : (i = index - 1 ∧ f.tears index v = true) ↔
      index = i + 1 ∧ v.isNull = false ∧ ∃ w, f.locals[i]? = some w ∧ w.isWide = true := by
    rw [tears_iff]
    constructor
    · rintro ⟨rfl, other, inside, wide⟩
      exact ⟨by omega, other, wide⟩
    · rintro ⟨rfl, other, wide⟩
      exact ⟨rfl, other, Nat.succ_pos i, wide⟩
  rw [tornBy, ← front, ← left]
  split
  next tears => rw [List.mem_cons, or_comm, and_iff_left tears]
  next whole => rw [or_iff_left fun torn => whole torn.2]

/-- A store that is not refused. -/
theorem stores_of_setLocal (h : f.setLocal index v = .ok f') : f.Stores index v f' := by
  unfold setLocal at h
  split at h
  · cases h
  next fits =>
    cases h
    have fits := Nat.le_of_not_lt fits
    have front := v.words_pos
    refine ⟨fits, ?_, ?_, fun wide => ?_, fun i outside => ?_, fun i => mem_tornBy⟩
    · dsimp only
      split <;> simp
    · have inside : index < (if v.isWide = true then f.locals.setIfInBounds (index + 1) .null
          else f.locals).size := by
        split
        · rw [Array.size_setIfInBounds]
          omega
        · omega
      exact Array.getElem?_setIfInBounds_self_of_lt inside
    · have pair := Value.words_of_wide wide
      dsimp only
      rw [if_pos wide, Array.getElem?_setIfInBounds_ne (by omega),
        Array.getElem?_setIfInBounds_self_of_lt (by omega)]
    · dsimp only
      rw [Array.getElem?_setIfInBounds_ne (by omega)]
      split
      next wide =>
        have pair := Value.words_of_wide wide
        rw [Array.getElem?_setIfInBounds_ne (by omega)]
      next => rfl

/-- A long or a double with both of its slots loses the second one when something other than null
is stored there. -/
theorem Stores.mem_torn (h : f.Stores index v f') (found : f.locals[i]? = some w)
    (wide : w.isWide = true) (whole : i ∉ f.torn) :
    i ∈ f'.torn ↔ index = i + 1 ∧ v.isNull = false := by
  rw [h.torn i]
  constructor
  · rintro (⟨-, before⟩ | ⟨place, other, -⟩)
    · exact absurd before whole
    · exact ⟨place, other⟩
  · exact fun ⟨place, other⟩ => .inr ⟨place, other, w, found, wide⟩

/-- What becomes of a long or a double at a slot when a value is stored at an index. -/
inductive Fate (f' : Frame) (index : Nat) (v : Value) (i : Nat) (w : Value) : Prop
  /-- Both of its slots are what they were. -/
  | kept (first : f'.locals[i]? = some w) (second : f'.locals[i + 1]? = some .null)
  /-- The value is stored over it. -/
  | replaced (place : index = i) (first : f'.locals[i]? = some v)
  /-- The value is a long or a double too, and takes its slot as a second one. -/
  | cleared (place : index + 1 = i) (pair : v.isWide = true) (first : f'.locals[i]? = some .null)
  /-- The value is stored over its second slot.  It is not null, and this is noted down. -/
  | torn (place : index = i + 1) (other : v.isNull = false) (noted : i ∈ f'.torn)

/-- A store keeps or destroys every long and double that has both of its slots, or it takes the
second slot away. -/
theorem Stores.fate (h : f.Stores index v f') (paired : f.Paired) (found : f.locals[i]? = some w)
    (wide : w.isWide = true) (whole : i ∉ f.torn) : f'.Fate index v i w := by
  obtain ⟨-, second⟩ := paired i w found wide
  have null := second whole
  by_cases same : index = i
  · exact .replaced same (same ▸ h.first)
  · by_cases pair : v.isWide = true ∧ index + 1 = i
    · exact .cleared pair.2 pair.1 (pair.2 ▸ h.second pair.1)
    · have apart : i < index ∨ index + v.words ≤ i := by
        rcases v.words_cases with ⟨kind, two⟩ | one
        · have : index + 1 ≠ i := fun place => pair ⟨kind, place⟩
          omega
        · omega
      have first : f'.locals[i]? = some w := (h.others i apart).trans found
      by_cases behind : index = i + 1
      · cases other : v.isNull with
        | false =>
            exact .torn behind other ((h.mem_torn found wide whole).mpr ⟨behind, other⟩)
        | true =>
            have null : v = .null := by
              cases v <;> first | rfl | cases other
            exact .kept first (by rw [← behind, h.first, null])
      · exact .kept first (by rw [h.others (i + 1) (by omega), null])

/-- What is long or double after a store has a second slot, with null in it unless that was stored
over. -/
theorem Stores.paired (h : f.Stores index v f') (paired : f.Paired) : f'.Paired := by
  intro i w found wide
  rw [h.size]
  have fits := h.fits
  by_cases same : i = index
  · subst same
    obtain rfl : v = w := Option.some.inj (h.first.symm.trans found)
    have pair := Value.words_of_wide wide
    exact ⟨by omega, fun _ => h.second wide⟩
  · by_cases inner : index < i ∧ i < index + v.words
    · -- the slot is the second one of the value that was stored, and null is not wide
      obtain ⟨rfl, pair⟩ : i = index + 1 ∧ v.isWide = true := by
        rcases v.words_cases with ⟨kind, two⟩ | one
        · exact ⟨by omega, kind⟩
        · omega
      rw [h.second pair] at found
      cases found
      cases wide
    · have before : f.locals[i]? = some w := by rw [← h.others i (by omega), found]
      obtain ⟨inside, -⟩ := paired i w before wide
      refine ⟨inside, fun whole' => ?_⟩
      have whole : i ∉ f.torn := fun torn =>
        whole' ((h.torn i).mpr (.inl ⟨by omega, torn⟩))
      cases h.fate paired before wide whole with
      | kept first second => exact second
      | replaced place first => exact absurd place.symm same
      | cleared place pair first =>
          rw [first] at found
          cases found
          cases wide
      | torn place other noted => exact absurd noted whole'

theorem setLocal_paired (h : f.setLocal index v = .ok f') (paired : f.Paired) : f'.Paired :=
  (stores_of_setLocal h).paired paired

/-! ## Arguments -/

/-- The local variables of a call come in pairs, whatever its arguments are. -/
theorem localsOf_paired {m : MethodDecl} {args : List Value} {locals : Array Value}
    (h : localsOf m args = .ok locals) (same : f.locals = locals) : f.Paired := by
  obtain ⟨enough, rfl⟩ := localsOf_eq_ok_iff.mp h
  intro i w found wide
  rw [same] at found ⊢
  rw [List.getElem?_toArray] at found
  obtain ⟨k, inside, rfl⟩ : ∃ k < args.length, i = ((args.take k).map Value.words).sum := by
    by_contra off
    push Not at off
    have null : w = .null := by
      rw [List.getElem?_append] at found
      split at found
      · exact Value.flatMap_spread_between found off
      · exact (List.mem_replicate.mp (List.mem_of_getElem? found)).2
    rw [null] at wide
    cases wide
  have given : args[k]? = some args[k] := List.getElem?_eq_getElem inside
  have first := Value.flatMap_spread_at given
    (List.replicate (m.localSlots - (args.map Value.words).sum) Value.null) 0 (Value.words_pos _)
  obtain rfl : args[k] = w := Option.some.inj (first.symm.trans found)
  have pair : 1 < args[k].words := by rw [Value.words_of_wide wide]; decide
  have second : (args.flatMap Value.spread ++ List.replicate
      (m.localSlots - (args.map Value.words).sum) Value.null)[((args.take k).map Value.words).sum
        + 1]? = some .null :=
    (Value.flatMap_spread_at given _ 1 pair).trans (Value.spread_succ pair)
  exact ⟨(List.getElem?_eq_some_iff.mp second).1, fun _ => by rwa [List.getElem?_toArray]⟩

end Frame

end JavaMachine
