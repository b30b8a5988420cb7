import JavaMachine.Proofs.WorldChanges
import JavaMachine.Proofs.FieldLookup

/-!
# Strings

A string consists of two entries: an array of the units of its text, and an object that holds this
array in the first field of the class of strings.  `Heap.Spells` says so, and a string that spells a
text is read as that text.

*Units.*  The units of every text are read as that text.  A character of the basic plane is no
surrogate, so its unit stands for itself; one outside it becomes a high surrogate in front of a low
one, and such a pair is put together again wherever it stands.

*Making a string.*  Nothing that was there is touched, and the handle that is answered was vacant.
With the class of strings as the machine brings it along a string is made wherever there is memory
for two more entries, and it spells the text: the field that the reference means, under which the
array is stored, is also the nearest one of its name.
-/

namespace JavaMachine

/-! ## Texts as units -/

namespace Text

/-- The number of a character is not that of a surrogate. -/
theorem toNat_cases (c : Char) : c.toNat < 0xD800 ∨ 0xDFFF < c.toNat ∧ c.toNat < 0x110000 := c.valid

theorem isHigh_iff {u : UInt16} : isHigh u = true ↔ 0xD800 ≤ u.toNat ∧ u.toNat ≤ 0xDBFF := by
  simp [isHigh, UInt16.le_iff_toNat_le]

theorem isLow_iff {u : UInt16} : isLow u = true ↔ 0xDC00 ≤ u.toNat ∧ u.toNat ≤ 0xDFFF := by
  simp [isLow, UInt16.le_iff_toNat_le]

theorem toNat_toUInt16 {n : Nat} (small : n < 0x10000) : n.toUInt16.toNat = n := by
  rw [Nat.toUInt16_eq, UInt16.toNat_ofNat', Nat.mod_eq_of_lt small]

/-- A unit that is no surrogate is read as the character of its number. -/
theorem charsOfUnits_cons {u : UInt16} (high : isHigh u = false) (low : isLow u = false)
    (rest : List UInt16) :
    charsOfUnits (u :: rest) = Char.ofNat u.toNat :: charsOfUnits rest := by
  cases rest with
  | nil => simp [charsOfUnits, high, low]
  | cons v rest => simp [charsOfUnits, high, low]

/-- The units of a character are read as that character, whatever comes behind them. -/
theorem charsOfUnits_unitsOfChar (c : Char) (rest : List UInt16) :
    charsOfUnits (unitsOfChar c ++ rest) = c :: charsOfUnits rest := by
  have range := toNat_cases c
  unfold unitsOfChar
  dsimp only
  split
  next small =>
    have same := toNat_toUInt16 small
    have high : isHigh c.toNat.toUInt16 = false := by
      rw [Bool.eq_false_iff, ne_eq, isHigh_iff, same]
      omega
    have low : isLow c.toNat.toUInt16 = false := by
      rw [Bool.eq_false_iff, ne_eq, isLow_iff, same]
      omega
    rw [List.singleton_append, charsOfUnits_cons high low, same, Char.ofNat_toNat]
  next large =>
    have first := toNat_toUInt16 (show 0xD800 + (c.toNat - 0x10000) / 0x400 < 0x10000 by omega)
    have second := toNat_toUInt16 (show 0xDC00 + (c.toNat - 0x10000) % 0x400 < 0x10000 by omega)
    have high := isHigh_iff.mpr (by rw [first]; omega)
    have low := isLow_iff.mpr (by rw [second]; omega)
    have number : 0x10000 + (0xD800 + (c.toNat - 0x10000) / 0x400 - 0xD800) * 0x400 +
        (0xDC00 + (c.toNat - 0x10000) % 0x400 - 0xDC00) = c.toNat := by omega
    simp only [List.cons_append, List.nil_append, charsOfUnits, high, low, Bool.and_self, if_true,
      pair, first, second, number, Char.ofNat_toNat]

theorem charsOfUnits_flatMap : ∀ cs : List Char, charsOfUnits (cs.flatMap unitsOfChar) = cs
  | [] => rfl
  | c :: cs => by rw [List.flatMap_cons, charsOfUnits_unitsOfChar, charsOfUnits_flatMap cs]

/-- The units of a text are read as that text. -/
theorem ofUnits_units (text : String) : ofUnits (units text) = text := by
  rw [ofUnits, units, charsOfUnits_flatMap, String.ofList_toList]

end Text

/-! ## Reading a string -/

namespace Entry

/-- The array of the characters of a text. -/
def characters (text : String) : Entry :=
  .array ⟨"[C", .char, ((Text.units text).map Value.char).toArray⟩

/-- An entry is a string that holds an array of characters. -/
def IsString (chars : Handle) : Entry → Prop
  | .object cls slots => cls.name = stringClassName ∧
      (slots.find? (·.field.name == "value")).map Slot.value = some (.array chars)
  | .array _ => False

end Entry

namespace Heap

variable {h h' : Heap} {r chars : Handle} {text : String}

/-- An element that is a unit is read as that unit. -/
theorem unitOf_char (u : UInt16) : unitOf (.char u) = .ok u := by
  have same : u.toUInt32.toInt32.toUInt32.toUInt16 = u := by simp
  exact congrArg Except.ok same

theorem mapM_unitOf : ∀ us : List UInt16, (us.map Value.char).mapM unitOf = .ok us
  | [] => rfl
  | u :: us => by
      rw [List.map_cons, List.mapM_cons, unitOf_char, mapM_unitOf us]
      rfl

/-- Under one handle there is a string, under another one the array of the characters of a text, and
the string holds this array. -/
structure Spells (h : Heap) (r chars : Handle) (text : String) : Prop where
  /-- There is the string. -/
  string : ∃ e, h.entry r = .ok e ∧ e.IsString chars
  /-- There are its characters. -/
  characters : h.entry chars = .ok (.characters text)

namespace Spells

theorem object (spells : h.Spells r chars text) : ∃ cls slots, h.object r = .ok (cls, slots) ∧
    cls.name = stringClassName ∧
    (slots.find? (·.field.name == "value")).map Slot.value = some (.array chars) := by
  obtain ⟨e, found, string⟩ := spells.string
  cases e with
  | array => exact string.elim
  | object cls slots => exact ⟨cls, slots, object_eq_ok.mpr found, string⟩

theorem fieldByName (spells : h.Spells r chars text) :
    h.fieldByName r "value" = .ok (some (.array chars)) := by
  obtain ⟨cls, slots, found, -, held⟩ := spells.object
  rw [Heap.fieldByName, found]
  exact congrArg Except.ok held

/-- A string is read as the text that it spells. -/
theorem readString (spells : h.Spells r chars text) : h.readString r = .ok (some text) := by
  have read := mapM_unitOf (Text.units text)
  rw [Heap.readString, spells.fieldByName]
  dsimp only [bind, Except.bind]
  rw [array_eq_ok.mpr spells.characters]
  dsimp only
  rw [read]
  exact congrArg (Except.ok ∘ some) (Text.ofUnits_units text)

/-- A string spells its text as long as its two cells are kept. -/
theorem of_kept (spells : h.Spells r chars text)
    (string : ∀ c, h.cell? r = some c → h'.cell? r = some c)
    (characters : ∀ c, h.cell? chars = some c → h'.cell? chars = some c) :
    h'.Spells r chars text where
  string := by
    obtain ⟨e, found, is⟩ := spells.string
    obtain ⟨serial, there⟩ := entry_eq_ok.mp found
    exact ⟨e, entry_eq_ok.mpr ⟨serial, string _ there⟩, is⟩
  characters := by
    obtain ⟨serial, there⟩ := entry_eq_ok.mp spells.characters
    exact entry_eq_ok.mpr ⟨serial, characters _ there⟩

end Spells

end Heap

/-! ## The class of strings -/

namespace Library

variable {lib : Library}

/-- The field for the characters of a string is the one that its reference means, and the first one
of a string. -/
theorem Bootstrapped.layout (boot : lib.Bootstrapped) : ∃ c rest,
    lib.find? stringClassName = some c ∧
      lib.findField stringClassName "value" = some ⟨c.ref, 0, charactersField⟩ ∧
      lib.instanceFields c = charactersField :: rest := by
  obtain ⟨c, looked, fields⟩ := boot.string
  have own := field?_of_single fields
  -- the library has a class, so its walks have a budget
  obtain ⟨n, budget⟩ : ∃ n, lib.budget = n + 1 :=
    Nat.exists_eq_add_one.mpr (List.length_pos_of_mem (List.mem_of_find?_eq_some looked))
  have found : lib.findField stringClassName "value" = c.field? "value" := by
    rw [findField, budget, findFieldWithin, looked]
    change (c.field? "value" <|> _) = _
    rw [show c.field? "value" = _ from own]
    rfl
  let inherited : List FieldDecl :=
    (lib.above c.toClassDecl).flatMap fun d => d.fields.filter fun g => !g.flags.isStatic
  refine ⟨c, inherited, looked, found.trans own, ?_⟩
  rw [instanceFields, lineage, List.flatMap_cons, ← fields]
  rfl

end Library

/-- A new object holds the fields of its class. -/
theorem Slot.holds_default {fields : List FieldDecl} {f : FieldDecl} (listed : f ∈ fields) :
    (fields.map fun g => (⟨g, Value.defaultOf g.type⟩ : Slot)).any (·.holds f) = true :=
  List.any_eq_true.mpr ⟨_, List.mem_map_of_mem listed, by simp [holds]⟩

theorem World.MemoAgrees.sameClasses {w w' : World} (memo : w.MemoAgrees)
    (classes : w.SameClasses w') :
    w'.MemoAgrees := by
  intro key f known
  rw [classes.library]
  exact (classes.memo key f known).elim memo id

namespace Exec

variable {s : Settings} {m m' : Machine} {cls : LoadedClass} {name text : String} {r : Handle}

/-! ## Making a string -/

theorem newInstance_eq (cls : LoadedClass) (reserved : Bool) : newInstance cls reserved s m =
    allocate (·.allocateObject cls (m.world.library.instanceFields cls) reserved) s m :=
  bind_of_ok library_run

theorem setField_eq_ok {f : FieldDecl} {v : Value} (h : setField r f v s m = .ok () m') :
    ∃ heap, m.world.heap.setField r f v = .ok heap ∧
      m' = { m with world := { m.world with heap, lapses := m.world.lapses.leak v } } := by
  rw [setField, bind_of_ok heap_run] at h
  obtain ⟨heap, mid, stored, rest⟩ := bind_eq_ok h
  obtain ⟨stored, rfl⟩ := ofExcept_eq_ok stored
  cases rest
  exact ⟨heap, stored, rfl⟩

theorem newCharacters_eq_ok {chars : Handle} (h : newCharacters text s m = .ok chars m') :
    ∃ heap lapses, m.world.heap.insert (.characters text) false = .ok (chars, heap) ∧
      m' = { m with world := { m.world with heap, lapses } } := by
  obtain ⟨r, mid, made, h⟩ := bind_eq_ok h
  obtain ⟨heap, inserted, rfl⟩ := allocate_ok made
  cases h
  exact ⟨heap, _, inserted, rfl⟩

/-- The characters of a string have been made. -/
theorem newCharacters_ok {chars : Handle} (h : newCharacters text s m = .ok chars m')
    (arena : m.world.heap.Arena) :
    m.world.heap.Extended [(chars, .characters text)] m'.world.heap := by
  obtain ⟨heap, lapses, inserted, rfl⟩ := newCharacters_eq_ok h
  exact .insert arena inserted

/-- A string was made of two entries, and the field that the reference means holds the first one in
the second one.  No literal was noted down. -/
theorem newString_ok (h : newString text s m = .ok r m') (arena : m.world.heap.Arena) :
    ∃ cls f chars, m.world.library.find? stringClassName = some cls ∧
      m'.world.fieldMemo.lookup (stringClassName, "value") = some f ∧
      m.world.heap.Extended [(chars, .characters text), (r, .object cls
        (Slot.store f.decl (.array chars) ((m.world.library.instanceFields cls).map fun g =>
          ⟨g, Value.defaultOf g.type⟩)))] m'.world.heap ∧
      m'.world.interned = m.world.interned := by
  obtain ⟨cls, a, known, rest⟩ := bind_eq_ok h
  obtain ⟨rfl, looked⟩ := findClass_ok known
  obtain ⟨f, b, resolved, rest⟩ := bind_eq_ok rest
  obtain ⟨events, fieldWalks, fieldMemo, run⟩ :=
    resolveField_run (s := s) (m := a) stringClassName "value"
  injection run.symm.trans resolved with _ after
  subst after
  cases f with
  | none => cases rest
  | some f =>
      have known := resolveField_ok resolved
      obtain ⟨chars, c, filled, rest⟩ := bind_eq_ok rest
      obtain ⟨string, d, created, rest⟩ := bind_eq_ok rest
      obtain ⟨heap, lapses, inserted, rfl⟩ := newCharacters_eq_ok filled
      obtain ⟨heap', inserted', rfl⟩ := allocate_ok (newInstance_eq cls false ▸ created)
      have first := Heap.Extended.insert arena inserted
      have second := first.trans (.insert first.arena inserted')
      obtain ⟨_, e, stored, done⟩ := bind_eq_ok rest
      obtain ⟨heap'', replaced, rfl⟩ := setField_eq_ok stored
      cases done
      obtain ⟨cls', slots, found, -, rfl⟩ := Heap.setField_ok replaced
      cases (second.added (r, _) (.tail _ (.head _))).symm.trans found
      exact ⟨cls, f, chars, looked, known, second.replace, rfl⟩

/-- A string that was made is under a new handle and of the class of strings. -/
theorem newString_fresh (h : newString text s m = .ok r m') (arena : m.world.heap.Arena) :
    m.world.heap.cell? r = none ∧ m'.world.heap.typeName (.object r) = .ok stringClassName ∧
      m'.world.interned = m.world.interned := by
  obtain ⟨cls, f, chars, looked, -, extended, same⟩ := newString_ok h arena
  refine ⟨extended.vacant _ (.tail _ (.head _)), ?_, same⟩
  have there := extended.added _ (.tail _ (.head _))
  rw [Heap.typeName, Heap.classOf, Heap.object_eq_ok.mpr there]
  exact congrArg Except.ok (Library.name_of_find? looked)

/-- A literal that was not known is noted down with the string that was made for it. -/
theorem stirsMemory_noting {text : String} {r : Handle} {s : Settings} {m mid : Machine}
    (new : m.world.interned.lookup text = none) (made : newString text s m = .ok r mid) :
    m.world.StirsMemory { mid.world with interned := (text, r) :: mid.world.interned } := by
  have stirs := ((newString_stirsMemory text).of_ok made).world
  refine ⟨stirs.toSameClassesMonitors.trans (.of_eq rfl rfl rfl rfl rfl id), fun arena => ?_⟩
  have stirred := stirs.stirs arena
  obtain ⟨vacant, named, same⟩ := newString_fresh made arena
  have looked (text' : String) : ((text, r) :: mid.world.interned).lookup text' =
      if text' = text then some r else m.world.interned.lookup text' := by
    rw [same, List.lookup_cons]
    by_cases here : text' = text
    · simp [here]
    · rw [beq_false_of_ne here, if_neg here]
  refine ⟨⟨stirred.arena, stirred.retains, fun {text' r'} found => ?_, fun {text' r'} found => ?_,
    fun {text₁ text₂ r'} new₁ new₂ found₁ found₂ => ?_⟩,
    stirred.chain.tail (.beside rfl rfl (fun _ => rfl) rfl rfl rfl)⟩
  · rw [looked, if_neg]
    · exact found
    · rintro rfl
      exact nomatch new.symm.trans found
  · rw [looked] at found
    split at found
    · cases found
      exact .inr ⟨vacant, named⟩
    · exact .inl found
  · rw [looked] at found₁ found₂
    split at found₁
    next same₁ =>
      split at found₂
      next same₂ => exact same₁.trans same₂.symm
      next => exact nomatch new₂.symm.trans found₂
    next => exact nomatch new₁.symm.trans found₁

/-! ## Strings that are granted -/

theorem findClass_of_find? (looked : m.world.library.find? name = some cls) :
    findClass name s m = .ok cls m := by
  rw [findClass, bind_of_ok library_run, Library.find, looked]
  rfl

/-- What is searched for is found, and the heap and the library stay as they are. -/
theorem resolveField_finds (memo : m.world.MemoAgrees) (className name : String) : ∃ m',
    resolveField className name s m = .ok (m.world.library.findField className name) m' ∧
      m'.world.heap = m.world.heap ∧ m'.world.library = m.world.library := by
  obtain ⟨events, fieldWalks, fieldMemo, run⟩ := resolveField_run (s := s) (m := m) className name
  refine ⟨_, run.trans (congrArg (EStateM.Result.ok · _) ?_), rfl, rfl⟩
  cases known : m.world.fieldMemo.lookup (className, name) with
  | some f => exact (memo known).symm
  | none => rfl

theorem setField_of_ok {f : FieldDecl} {v : Value} {heap : Heap}
    (stored : m.world.heap.setField r f v = .ok heap) : setField r f v s m =
      .ok () { m with world := { m.world with heap, lapses := m.world.lapses.leak v } } := by
  rw [setField, bind_of_ok heap_run, stored]
  rfl

theorem setField_of_error {f : FieldDecl} {v : Value} {e : Fault}
    (refused : m.world.heap.setField r f v = .error e) :
    setField r f v s m = .error (.fault e) m := by
  rw [setField, bind_of_ok heap_run, refused]
  rfl

/-- A string is made in four steps. -/
theorem newString_run {f : FieldRef} {chars : Handle} {m₁ m₂ m₃ : Machine} {heap : Heap}
    (looked : m.world.library.find? stringClassName = some cls)
    (resolved : resolveField stringClassName "value" s m = .ok (some f) m₁)
    (filled : newCharacters text s m₁ = .ok chars m₂)
    (created : newInstance cls false s m₂ = .ok r m₃)
    (stored : m₃.world.heap.setField r f.decl (.array chars) = .ok heap) :
    newString text s m = .ok r { m₃ with world := { m₃.world with
      heap, lapses := m₃.world.lapses.leak (.array chars) } } := by
  have known : findClass stringClassName s m = .ok cls m := findClass_of_find? looked
  have finished := setField_of_ok (s := s) stored
  rw [newString, bind_of_ok known, bind_of_ok resolved]
  dsimp only
  rw [bind_of_ok filled, bind_of_ok created, bind_of_ok finished]
  rfl

/-- Where there is memory for an object it is made. -/
theorem newInstance_granted {n : Nat} (room : m.world.heap.HasRoom (n + 1)) (cls : LoadedClass)
    (reserved : Bool) : ∃ r heap,
      m.world.heap.allocateObject cls (m.world.library.instanceFields cls) reserved =
        .ok (r, heap) ∧ heap.HasRoom n ∧
      newInstance cls reserved s m = .ok r { m with world := { m.world with heap } } := by
  obtain ⟨r, heap, made, left⟩ := room.insert (.object cls _) reserved
  refine ⟨r, heap, made, left, ?_⟩
  rw [newInstance_eq]
  exact allocate_of_ok made

/-- Where there is memory for an entry the characters of a text are put into an array. -/
theorem newCharacters_granted {n : Nat} (room : m.world.heap.HasRoom (n + 1)) (text : String) :
    ∃ chars m', newCharacters text s m = .ok chars m' ∧
      m.world.heap.insert (.characters text) false = .ok (chars, m'.world.heap) ∧
      m'.world.heap.HasRoom n ∧ m'.world.library = m.world.library := by
  obtain ⟨chars, heap, made, left⟩ := room.insert (.characters text) false
  exact ⟨chars, _, newCharacters_of_ok made, made, left, rfl⟩

/-- With the class of strings as the machine brings it along a string is made wherever there is
memory for two more entries. -/
theorem newString_granted (boot : m.world.library.Bootstrapped) (memo : m.world.MemoAgrees)
    (arena : m.world.heap.Arena) (room : m.world.heap.HasRoom 2) (text : String) :
    ∃ r m', newString text s m = .ok r m' := by
  obtain ⟨c, rest, looked, found, fields⟩ := boot.layout
  obtain ⟨m₁, resolved, heap₁, library₁⟩ := resolveField_finds (s := s) memo stringClassName "value"
  rw [found] at resolved
  rw [← heap₁] at arena room
  obtain ⟨chars, m₂, filled, made, room, library₂⟩ :=
    newCharacters_granted (s := s) room text
  obtain ⟨r, heap₃, made', -, created⟩ := newInstance_granted (s := s) room c false
  have listed : Library.charactersField ∈ m₂.world.library.instanceFields c := by
    rw [library₂, library₁, fields]
    exact List.mem_cons_self
  have new := Heap.entry_eq_ok.mpr
    ⟨_, (((arena.insert made).grown made').cells r).trans (if_pos rfl)⟩
  have stored := Heap.setField_held new (Slot.holds_default listed) (.array chars)
  exact ⟨r, _, newString_run looked resolved filled created stored⟩

/-- A string that was made spells the text. -/
theorem newString_spells (boot : m.world.library.Bootstrapped) (memo : m.world.MemoAgrees)
    (arena : m.world.heap.Arena) (h : newString text s m = .ok r m') :
    ∃ chars e, m.world.heap.Extended [(chars, .characters text), (r, e)] m'.world.heap ∧
      m'.world.heap.Spells r chars text := by
  obtain ⟨cls, f, chars, looked, known, extended, -⟩ := newString_ok h arena
  have stirs := ((newString_stirsMemory text).of_ok h).world
  obtain ⟨c, rest, looked', found, fields⟩ := boot.layout
  cases looked.symm.trans looked'
  have means := memo.sameClasses stirs.toSameClasses known
  rw [stirs.library, found] at means
  cases means
  refine ⟨chars, _, extended, ⟨_, extended.added _ (.tail _ (.head _)), ?_⟩,
    extended.added _ (.head _)⟩
  refine ⟨Library.name_of_find? looked, ?_⟩
  rw [fields]
  rfl

end Exec

end JavaMachine
