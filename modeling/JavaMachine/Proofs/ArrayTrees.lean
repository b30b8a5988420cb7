import JavaMachine.Proofs.Reading
import JavaMachine.Proofs.Shortage
import Mathlib.Algebra.BigOperators.Ring.List
import Mathlib.Algebra.Ring.Nat

/-!
# Arrays of arrays

An array of several dimensions is a tree, and its arrays are named by paths: the path of an array
lists the indices that lead to it from the root.  `ArrayTree.Leads` says which paths there are for
given lengths, `ArrayTree.paths` lists them in the order in which the arrays are made, and a tree is
a map from paths to handles.

*The tree.*  The trees below the root are made first, one after the other, and then the root that
holds them.  So by induction on the lengths the new entries are those of a tree
(`multiArray_plants`), and what is known of new entries is known of its arrays: a handle that was
freed before may be used again, but no two arrays have one handle.  A length of zero cuts the tree,
and the number of arrays is counted accordingly (`ArrayTree.size`).

*The memory.*  Nothing but memory is missing when a tree is not made (`multiArray_grants`).

*The instruction.*  The counts are popped from the last dimension to the first, and turned round.
-/

namespace JavaMachine

/-! ## Paths -/

namespace ArrayTree

variable {length : Nat} {lengths path : List Nat}

/-- A path leads to an array of a tree of given lengths: every index of it is within the array at
its level, and the last level has no arrays below it. -/
def Leads : List Nat → List Nat → Prop
  | [], _ => False
  | _ :: _, [] => True
  | length :: lengths, i :: path => i < length ∧ Leads lengths path

/-- The paths of a tree, those below an array in front of the array. -/
def paths : List Nat → List (List Nat)
  | [] => []
  | length :: lengths => ((List.range length).flatMap fun i => (paths lengths).map (i :: ·)) ++ [[]]

/-- The number of arrays in a tree: one, as many as the first length, as many as the first two
lengths multiplied, and so on up to the length in front of the last. -/
def size (lengths : List Nat) : Nat :=
  ((List.range lengths.length).map fun level => (lengths.take level).prod).sum

theorem mem_paths : path ∈ paths lengths ↔ Leads lengths path := by
  induction lengths generalizing path with
  | nil => simp [paths, Leads]
  | cons length lengths ih =>
      cases path with
      | nil => simp [paths, Leads]
      | cons i path => simp [paths, Leads, ih]

/-- An index within an array above the last level leads on. -/
theorem Leads.concat {i : Nat} (leads : Leads lengths path)
    (inner : path.length + 1 < lengths.length) (within : i < lengths.getD path.length 0) :
    Leads lengths (path ++ [i]) := by
  induction lengths generalizing path with
  | nil => cases leads
  | cons length lengths ih =>
      cases path with
      | nil =>
          cases lengths with
          | nil => simp at inner
          | cons next lengths => exact ⟨within, trivial⟩
      | cons j path =>
          exact ⟨leads.1, ih leads.2 (Nat.lt_of_succ_lt_succ inner) (by simpa using within)⟩

theorem size_cons : size (length :: lengths) = 1 + length * size lengths := by
  simp only [size, List.length_cons, List.range_succ_eq_map, List.map_cons, List.map_map,
    List.sum_cons, List.take_zero, List.prod_nil]
  congr 1
  rw [← List.sum_map_mul_left]
  exact congrArg List.sum (List.map_congr_left fun level _ => by simp)

theorem length_paths : (paths lengths).length = size lengths := by
  induction lengths with
  | nil => rfl
  | cons length lengths ih =>
      have below : ((List.range length).flatMap fun i => (paths lengths).map (i :: ·)).length =
          length * size lengths := by
        simp only [List.length_flatMap, List.length_map, ih, List.map_const', List.length_range,
          List.sum_replicate_nat]
      rw [size_cons, paths, List.length_append, below, List.length_singleton, Nat.add_comm]

/-! ## Trees -/

/-- The array at a path: as long as its level says, of the descriptor without what is in front of
its level, and filled with the arrays below it, or with defaults on the last level. -/
def node (tree : List Nat → Handle) (descriptor : List Char) (lengths path : List Nat) :
    ArrayEntry :=
  let length := lengths.getD path.length 0
  let kind := ElementKind.ofDescriptor (String.ofList (descriptor.drop (path.length + 1)))
  { descriptor := String.ofList (descriptor.drop path.length)
    kind
    elements :=
      if path.length + 1 < lengths.length then
        ((List.range length).map fun i => .array (tree (path ++ [i]))).toArray
      else Array.replicate length kind.defaultValue }

/-- What is made for a tree, in order. -/
def entries (descriptor : List Char) (lengths : List Nat) (tree : List Nat → Handle) :
    List (Handle × Entry) :=
  (paths lengths).map fun path => (tree path, .array (node tree descriptor lengths path))

/-- A tree of a root and the trees below it. -/
def join (root : Handle) (trees : List (List Nat → Handle)) : List Nat → Handle
  | [] => root
  | i :: path => trees.getD i (fun _ => root) path

variable {root : Handle} {trees : List (List Nat → Handle)} {tree : List Nat → Handle}
  {descriptor : List Char}

theorem node_join_cons (i : Nat) (path : List Nat) :
    node (join root trees) descriptor (length :: lengths) (i :: path) =
      node (trees.getD i fun _ => root) descriptor.tail lengths path := by
  simp only [node, List.length_cons, List.getD_cons_succ, ← List.drop_tail,
    Nat.add_lt_add_iff_right, List.cons_append, join]

/-- The trees below a root, by their indices. -/
theorem map_getD_trees (root : Handle) (counted : trees.length = length) :
    (List.range length).map (fun i => trees.getD i fun _ => root) = trees := by
  refine List.ext_getElem (by simp [counted]) fun i _ inside => ?_
  simp [List.getElem?_eq_getElem inside]

theorem map_join_roots (counted : trees.length = length) :
    (List.range length).map (fun i => join root trees [i]) = trees.map (· []) := by
  conv_rhs => rw [← map_getD_trees root counted, List.map_map]
  rfl

/-- What is made for a tree is what is made for the trees below its root, and then the root. -/
theorem entries_join (counted : trees.length = length) :
    entries descriptor (length :: lengths) (join root trees) =
      trees.flatMap (entries descriptor.tail lengths) ++
        [(root, .array (node (join root trees) descriptor (length :: lengths) []))] := by
  have below : trees.flatMap (entries descriptor.tail lengths) = (List.range length).flatMap
      fun i => entries descriptor.tail lengths (trees.getD i fun _ => root) := by
    conv_lhs => rw [← map_getD_trees root counted, List.flatMap_map]
  rw [below, entries, paths, List.map_append, List.map_flatMap]
  congr 1
  refine congrArg (List.flatMap · _) (funext fun i => ?_)
  rw [List.map_map, entries]
  exact List.map_congr_left fun path _ => by
    simp only [Function.comp_apply, node_join_cons]
    rfl

end ArrayTree

/-! ## Trees in the heap -/

namespace Heap

open ArrayTree

variable {h h' h'' : Heap} {new later : List (Handle × Entry)} {descriptor : List Char}
  {lengths : List Nat} {tree : List Nat → Handle}

/-- A heap is another one with new entries, which are counted. -/
structure Enlarged (h : Heap) (new : List (Handle × Entry)) (h' : Heap) : Prop extends
    h.Extended new h' where
  /-- There are so many more live entries. -/
  live : h'.live = h.live + new.length

theorem Enlarged.refl (arena : h.Arena) : h.Enlarged [] h := ⟨.refl arena, rfl⟩

theorem Enlarged.insert {e : Entry} {r : Handle} {reserved : Bool} (arena : h.Arena)
    (made : h.insert e reserved = .ok (r, h')) : h.Enlarged [(r, e)] h' := by
  refine ⟨.insert arena made, ?_⟩
  obtain ⟨i, free, -, -, rfl⟩ | ⟨-, -, rfl⟩ := insert_cases made <;> rfl

theorem Enlarged.trans (first : h.Enlarged new h') (second : h'.Enlarged later h'') :
    h.Enlarged (new ++ later) h'' := by
  refine ⟨first.toExtended.trans second.toExtended, ?_⟩
  rw [second.live, first.live, List.length_append, Nat.add_assoc]

/-- Between two heaps a tree of arrays was made. -/
structure Planted (h : Heap) (descriptor : List Char) (lengths : List Nat)
    (tree : List Nat → Handle) (h' : Heap) : Prop where
  /-- Every path leads to its array. -/
  arrays : ∀ path, Leads lengths path →
    h'.array (tree path) = .ok (node tree descriptor lengths path)
  /-- The elements of an array above the last level are arrays of the tree. -/
  inner : ∀ path, Leads lengths path → path.length + 1 < lengths.length →
    ∀ v ∈ (node tree descriptor lengths path).elements,
      ∃ i, Leads lengths (path ++ [i]) ∧ v = .array (tree (path ++ [i]))
  /-- There was nothing where the arrays are. -/
  fresh : ∀ path, Leads lengths path → h.cell? (tree path) = none
  /-- Different paths lead to different arrays. -/
  apart : ∀ path path', Leads lengths path → Leads lengths path' →
    tree path = tree path' → path = path'
  /-- What was there is what it was. -/
  kept : ∀ r c, h.cell? r = some c → h'.cell? r = some c
  /-- Nothing else is there. -/
  only : ∀ r c, h'.cell? r = some c →
    h.cell? r = some c ∨ ∃ path, Leads lengths path ∧ r = tree path
  /-- One entry was added for every array. -/
  live : h'.live = h.live + size lengths

theorem Enlarged.planted (enlarged : h.Enlarged (entries descriptor lengths tree) h') :
    h.Planted descriptor lengths tree h' := by
  have listed {path : List Nat} (leads : Leads lengths path) :
      (tree path, Entry.array (node tree descriptor lengths path)) ∈
        entries descriptor lengths tree :=
    List.mem_map.mpr ⟨path, mem_paths.mpr leads, rfl⟩
  have handles : (entries descriptor lengths tree).map Prod.fst = (paths lengths).map tree := by
    rw [entries, List.map_map]
    rfl
  refine ⟨fun path leads => array_eq_ok.mpr (enlarged.added _ (listed leads)), ?_,
    fun path leads => enlarged.vacant _ (listed leads), ?_, fun _ _ => enlarged.kept, ?_, ?_⟩
  · intro path leads above v held
    simp only [node, if_pos above, List.mem_toArray, List.mem_map, List.mem_range] at held
    obtain ⟨i, within, rfl⟩ := held
    exact ⟨i, leads.concat above within, rfl⟩
  · intro path path' leads leads' same
    have nodup := enlarged.nodup
    rw [handles] at nodup
    exact List.inj_on_of_nodup_map nodup (mem_paths.mpr leads) (mem_paths.mpr leads') same
  · intro r c found
    refine (enlarged.only found).imp_right fun new => ?_
    rw [handles] at new
    obtain ⟨path, inside, rfl⟩ := List.mem_map.mp new
    exact ⟨path, mem_paths.mp inside, rfl⟩
  · rw [enlarged.live, entries, List.length_map, length_paths]

end Heap

namespace Exec

open ArrayTree

variable {s : Settings} {m m' : Machine} {descriptor : List Char} {lengths : List Nat}

/-- What a computation makes is a tree of given lengths, of which it answers the root. -/
def Plants (descriptor : List Char) (lengths : List Nat) (x : Exec Handle) : Prop :=
  ∀ ⦃s m r m'⦄, x s m = .ok r m' → m.world.heap.Arena → ∃ tree : List Nat → Handle,
    tree [] = r ∧ m.world.heap.Enlarged (entries descriptor lengths tree) m'.world.heap

/-- Trees that are made one after the other are all there in the end. -/
theorem Plants.collectTimes {x : Exec Handle} (hx : Plants descriptor lengths x) :
    ∀ (n : Nat) (results : Array Handle) {s m all m'},
      collectTimes x n results s m = .ok all m' → m.world.heap.Arena →
      ∃ trees : List (List Nat → Handle), trees.length = n ∧
        all.toList = results.toList ++ trees.map (· []) ∧
        m.world.heap.Enlarged (trees.flatMap (entries descriptor lengths)) m'.world.heap
  | 0, results, s, m, all, m', h, arena => by
      cases h
      exact ⟨[], rfl, by simp, .refl arena⟩
  | n + 1, results, s, m, all, m', h, arena => by
      obtain ⟨r, mid, first, rest⟩ := bind_eq_ok h
      obtain ⟨tree, rfl, planted⟩ := hx first arena
      obtain ⟨trees, counted, same, later⟩ := hx.collectTimes n _ rest planted.arena
      refine ⟨tree :: trees, by simp [counted], ?_, by simpa using planted.trans later⟩
      simp [same]

/-- An array of arrays is a tree: the trees below it are made first, and then the array of their
roots. -/
theorem multiArray_plants : ∀ (lengths : List Nat) (descriptor : List Char), lengths ≠ [] →
    lengths.length ≤ (descriptor.takeWhile (· == '[')).length →
    Plants descriptor lengths (multiArray descriptor lengths)
  | [], _, given, _ => absurd rfl given
  | [length], descriptor, _, _ => by
      intro s m r m' h arena
      obtain ⟨heap, done, rfl⟩ := allocate_ok h
      have last : paths [length] = [[]] := by simp [paths]
      refine ⟨fun _ => r, rfl, ?_⟩
      simpa [entries, last, node] using Heap.Enlarged.insert arena (Heap.allocateArray_ok done)
  | length :: next :: lengths, descriptor, _, deep => by
      intro s m r m' h arena
      obtain ⟨rest, rfl, within⟩ := dimension_cons deep
      obtain ⟨last, rfl, -⟩ := dimension_cons within
      have inner := multiArray_plants (next :: lengths) ('[' :: last) (List.cons_ne_nil _ _) within
      obtain ⟨_, a, checked, h⟩ := bind_eq_ok h
      have sameHeap : m.SameHeapPending a := (checkLength_keeps length).of_ok checked
      have same := sameHeap.heap
      obtain ⟨all, b, collected, h⟩ := bind_eq_ok h
      obtain ⟨heap, inserted, rfl⟩ := allocate_ok h
      obtain ⟨trees, counted, roots, planted⟩ :=
        inner.collectTimes length #[] collected (same.symm ▸ arena)
      rw [same] at planted
      -- the array at the root holds the roots of the trees below it
      have top : node (join r trees) ('[' :: '[' :: last) (length :: next :: lengths) [] =
          ⟨String.ofList ('[' :: '[' :: last), .reference, all.map .array⟩ := by
        have elements : all = ((List.range length).map fun i => join r trees [i]).toArray := by
          rw [map_join_roots counted, ← Array.toList_inj, roots]
          rfl
        simp [node, elements, ElementKind.ofDescriptor]
      refine ⟨join r trees, rfl, ?_⟩
      rw [entries_join counted, top]
      exact planted.trans (.insert planted.arena inserted)

end Exec

/-! ## Memory for a tree -/

namespace Heap

variable {h h' : Heap} {lengths : List Nat} {j k : Nat}

/-- Arrays of given lengths may be made, and there is memory for so many entries. -/
structure Room (h : Heap) (lengths : List Nat) (count : Nat) : Prop where
  /-- No length is refused. -/
  short : ∀ length ∈ lengths, h.checkLength length = .ok ()
  /-- The entries fit below the capacity. -/
  enough : ∀ capacity, h.capacity = some capacity → h.live + count ≤ capacity

/-- Between two heaps with the same limits so many entries were made. -/
structure Spent (h : Heap) (count : Nat) (h' : Heap) : Prop where
  /-- There are so many more live entries. -/
  live : h'.live = h.live + count
  /-- The capacity is the same. -/
  capacity : h'.capacity = h.capacity
  /-- The limit of the lengths is the same. -/
  maxArrayLength : h'.maxArrayLength = h.maxArrayLength

theorem Room.mono (room : h.Room lengths k) (less : j ≤ k) : h.Room lengths j :=
  ⟨room.short, fun capacity bounded => by
    have enough := room.enough capacity bounded
    omega⟩

theorem Room.spent (room : h.Room lengths (j + k)) (spent : h.Spent j h') : h'.Room lengths k where
  short length listed := by
    have short := room.short length listed
    rwa [checkLength, isTooLong, ← spent.maxArrayLength] at short
  enough capacity bounded := by
    have enough := room.enough capacity (spent.capacity.symm.trans bounded)
    rw [spent.live]
    omega

theorem Spent.trans {h'' : Heap} (first : h.Spent j h') (second : h'.Spent k h'') :
    h.Spent (j + k) h'' :=
  ⟨by rw [second.live, first.live, Nat.add_assoc], second.capacity.trans first.capacity,
    second.maxArrayLength.trans first.maxArrayLength⟩

/-- There is memory for an entry. -/
theorem Room.insert (room : h.Room lengths 1) (e : Entry) :
    ∃ r h', h.insert e false = .ok (r, h') ∧ h.Spent 1 h' := by
  have enough : h.HasRoom 1 := room.enough
  obtain ⟨r, h', made, -⟩ := enough.insert e false
  obtain ⟨capacity, longest⟩ := insert_limits made
  exact ⟨r, h', made, insert_live made, capacity, longest⟩

end Heap

namespace Exec

open ArrayTree

variable {α β : Type} {s : Settings} {m m' : Machine} {descriptor : List Char}
  {all lengths : List Nat} {j k : Nat} {x : Exec α} {f : α → Exec β}

/-- Where arrays of given lengths may be made and there is memory for so many entries, a computation
has a result and makes so many. -/
def Grants (lengths : List Nat) (count : Nat) (x : Exec α) : Prop :=
  ∀ s m, m.world.heap.Room lengths count →
    ∃ a m', x s m = .ok a m' ∧ m.world.heap.Spent count m'.world.heap

theorem Grants.bind (hx : Grants all j x) (hf : ∀ a, Grants all k (f a)) :
    Grants all (j + k) (x >>= f) := by
  intro s m room
  obtain ⟨a, mid, first, spent⟩ := hx s m (room.mono (Nat.le_add_right j k))
  obtain ⟨b, last, second, later⟩ := hf a s mid (room.spent spent)
  exact ⟨b, last, (bind_of_ok first).trans second, spent.trans later⟩

theorem Grants.pure (a : α) : Grants all 0 (Pure.pure a : Exec α) :=
  fun _ m _ => ⟨a, m, rfl, rfl, rfl, rfl⟩

theorem Grants.collectTimes (hx : Grants all k x) :
    ∀ (n : Nat) (results : Array α), Grants all (n * k) (collectTimes x n results)
  | 0, results => by
      rw [Nat.zero_mul]
      exact .pure results
  | n + 1, results => by
      rw [Nat.succ_mul, Nat.add_comm]
      exact hx.bind fun a => hx.collectTimes n _

theorem checkLength_grants {length : Nat} (listed : length ∈ all) :
    Grants all 0 (checkLength length) := by
  intro s m room
  refine ⟨(), m, ?_, rfl, rfl, rfl⟩
  rw [checkLength, bind_of_ok heap_run, room.short length listed]
  rfl

theorem allocate_grants {g : Heap → Except Fault (Handle × Heap)}
    (made : ∀ h : Heap, h.Room all 1 → ∃ e, g h = h.insert e false) : Grants all 1 (allocate g) := by
  intro s m room
  obtain ⟨e, same⟩ := made _ room
  obtain ⟨r, heap, inserted, spent⟩ := room.insert e
  exact ⟨r, _, allocate_of_ok (same.trans inserted), spent⟩

theorem allocateArray_grants {length : Nat} (listed : length ∈ all) (kind : ElementKind)
    (descriptor : String) : Grants all 1 (allocate (·.allocateArray kind descriptor length)) := by
  refine allocate_grants fun h room =>
    ⟨.array ⟨descriptor, kind, Array.replicate length kind.defaultValue⟩, ?_⟩
  rw [Heap.allocateArray, room.short length listed]
  rfl

/-- A tree is made where there is memory for all its arrays. -/
theorem multiArray_grants : ∀ (lengths : List Nat) (descriptor : List Char), lengths ≠ [] →
    (∀ length ∈ lengths, length ∈ all) → Grants all (size lengths) (multiArray descriptor lengths)
  | [], _, given, _ => absurd rfl given
  | [length], _, _, listed => allocateArray_grants (listed length (by simp)) _ _
  | length :: next :: lengths, descriptor, _, listed => by
      have inner := multiArray_grants (next :: lengths) descriptor.tail (List.cons_ne_nil _ _)
        fun n inside => listed n (List.mem_cons_of_mem _ inside)
      have whole : size (length :: next :: lengths) = 0 + (length * size (next :: lengths) + 1) := by
        rw [@size_cons length (next :: lengths)]
        omega
      rw [whole]
      refine (checkLength_grants (listed length (by simp))).bind fun _ => ?_
      exact (inner.collectTimes length #[]).bind fun trees => allocate_grants fun h _ => ⟨_, rfl⟩

end Exec

/-! ## The instruction -/

/-- At the address of the frame stands the instruction that makes an array of several dimensions,
with a class name of the pool and a number of dimensions. -/
def Frame.FacesTree (f : Frame) (name : String) (dimensions : Nat) : Prop :=
  ∃ (index : UInt16) (byte : UInt8), byte.toNat = dimensions ∧
    f.Shows f.pc [0xc5, (index >>> 8).toUInt8, index.toUInt8, byte] ∧
    f.cls.pool.entry index = .ok (.className name)

namespace Exec

open ArrayTree

variable {s : Settings} {m : Machine} {f : Frame} {rest : List Frame}
  {operands below : Array Operand} {events : Array Event} {pc : Nat} {name : String}
  {counts : List Int32}

theorem readClassName_run {index : UInt16}
    (shown : f.Shows pc [(index >>> 8).toUInt8, index.toUInt8])
    (entry : f.cls.pool.entry index = .ok (.className name)) :
    readClassName s (m.amid f rest operands events pc) =
      .ok name (m.amid f rest operands events (pc + 2)) := by
  rw [readClassName, bind_of_ok (readU16_run shown), bind_of_ok (frame_of_cons rfl)]
  dsimp only
  rw [entry]
  rfl

/-- The instruction reads its operands and its counts, and then asks for the tree. -/
theorem newMultiArray_run {index : UInt16} {byte : UInt8} {os : List Operand}
    (shown : f.Shows pc [(index >>> 8).toUInt8, index.toUInt8, byte])
    (entry : f.cls.pool.entry index = .ok (.className name)) (given : counts ≠ [])
    (dimensions : byte.toNat = counts.length)
    (deep : counts.length ≤ (name.toList.takeWhile (· == '[')).length)
    (natural : ∀ c ∈ counts, 0 ≤ c) (own : f.stackBase ≤ below.size)
    (values : List.Forall₂ (fun o n => o.value.asInt = .ok n) os counts) :
    newMultiArray s (m.amid f rest (below ++ os.toArray) events pc) = (do
      match ← orOutOfMemory (multiArray name.toList (counts.map fun c => c.toInt.toNat)) with
      | some r => push (.array r)
      | none => pure () : Exec Unit) s (m.amid f rest below events (pc + 3)) := by
  have named : readClassName s (m.amid f rest (below ++ os.toArray) events pc) = _ :=
    readClassName_run (shown.front [byte]) entry
  have counted : readU8 s (m.amid f rest (below ++ os.toArray) events (pc + 2)) =
      .ok byte (m.amid f rest (below ++ os.toArray) events (pc + 3)) :=
    readU8_run (shown.back [(index >>> 8).toUInt8, index.toUInt8])
  have popped : collectTimes popInt counts.reverse.length #[] s
      (m.amid f rest (below ++ os.reverse.reverse.toArray) events (pc + 3)) = _ :=
    collectTimes_popInt_run own (List.forall₂_reverse_iff.mpr values) #[]
  rw [List.length_reverse, List.reverse_reverse] at popped
  have some : 0 < counts.length := List.length_pos_iff.mpr given
  have all : counts.find? (· < 0) = none := by
    rw [List.find?_eq_none]
    intro c listed
    have positive := natural c listed
    rw [decide_eq_true_eq]
    rw [Int32.le_iff_toInt_le] at positive
    rw [Int32.lt_iff_toInt_lt]
    omega
  rw [newMultiArray, bind_of_ok named, bind_of_ok counted]
  dsimp only
  rw [dimensions, if_neg (by omega), bind_of_ok popped]
  have turned : (#[] ++ counts.reverse.toArray).toList.reverse = counts := by simp
  rw [turned]
  generalize counts.find? (· < 0) = negative at all ⊢
  subst all
  rfl

/-- An array of several dimensions is a tree without sharing.

Let an instruction stand in front of the current frame that makes an array of a class name with so
many brackets, let that many counts, none of them negative, be the top operands, and let the books
of the heap be in order, as they are after any use of it.  If the instruction ends without an
exception, the pushed array is the root of a tree in which every array is new and no two are the
same, the array at each path is as long as the count of its level says, and there is one new entry
for each array and nothing else is changed.  It does end so wherever there is memory for the
tree. -/
theorem step_plants (host : Host) (s : Settings) (offers : m.Offers f rest below counts)
    (faces : f.FacesTree name counts.length) (given : counts ≠ [])
    (deep : counts.length ≤ (name.toList.takeWhile (· == '[')).length)
    (natural : ∀ c ∈ counts, 0 ≤ c) (arena : m.world.heap.Arena) :
    (∀ flow m', step host s m = .ok flow m' → m'.thread.pending = none →
      flow = .next ∧ ∃ tree, m'.thread.operands = below.push ⟨.array (tree []), f.pc⟩ ∧
        m.world.heap.Planted name.toList (counts.map fun c => c.toInt.toNat) tree m'.world.heap) ∧
    (m.thread.pending = none →
      m.world.heap.Room (counts.map fun c => c.toInt.toNat)
        (size (counts.map fun c => c.toInt.toNat)) →
      ∃ m', step host s m = .ok .next m' ∧ m'.thread.pending = none) := by
  obtain ⟨current, ⟨os, top, values⟩, own⟩ := offers
  obtain ⟨index, byte, dimensions, shown, entry⟩ := faces
  have opcode : f.Shows f.pc [0xc5] :=
    shown.front [(index >>> 8).toUInt8, index.toUInt8, byte]
  obtain ⟨events, fetched⟩ := fetch_run (s := s) current opcode
  rw [top] at fetched
  have performed : step host s m = (do newMultiArray; return .next : Exec Flow) s
      (m.amid f rest (below ++ os.toArray) events (f.pc + 1)) := by
    rw [step, bind_of_ok fetched]
    rfl
  have asked : newMultiArray s (m.amid f rest (below ++ os.toArray) events (f.pc + 1)) = _ :=
    newMultiArray_run (shown.back [0xc5]) entry given dimensions deep natural own values
  have some : counts.map (fun c => c.toInt.toNat) ≠ [] := by simpa using given
  have brackets : (counts.map fun c => c.toInt.toNat).length ≤
      (name.toList.takeWhile (· == '[')).length := by rwa [List.length_map]
  constructor
  · intro flow m' h clear
    rw [performed] at h
    obtain ⟨_, mid, made, done⟩ := bind_eq_ok h
    cases done
    obtain ⟨answer, b, obtained, pushed⟩ := bind_eq_ok (asked.symm.trans made)
    cases answer with
    | none =>
        cases pushed
        exact absurd clear (orOutOfMemory_none obtained)
    | some r =>
        have built := orOutOfMemory_some obtained
        have still := ((multiArray_freely _ _ : Keeps Machine.SameThreadClasses _).of_ok
          built).thread
        obtain ⟨tree, rfl, enlarged⟩ := multiArray_plants _ _ some brackets built arena
        cases pushed
        refine ⟨rfl, tree, ?_, enlarged.planted⟩
        show (b.thread.push (.array (tree []))).operands = _
        rw [still]
        rfl
  · intro clear room
    obtain ⟨r, b, built, -⟩ := multiArray_grants _ name.toList some (fun _ => id) s
      (m.amid f rest below events (f.pc + 1 + 3)) room
    have obtained : orOutOfMemory (multiArray name.toList (counts.map fun c => c.toInt.toNat)) s
        (m.amid f rest below events (f.pc + 1 + 3)) = .ok (.some r) b :=
      bind_of_ok (attempt_of_ok built)
    have still := ((multiArray_freely _ _ : Keeps Machine.SameThreadClasses _).of_ok built).thread
    refine ⟨{ b with thread := b.thread.push (.array r) }, ?_, ?_⟩
    · rw [performed, bind_of_ok (asked.trans (bind_of_ok obtained))]
      rfl
    · show b.thread.pending = none
      rw [still]
      exact clear

end Exec

namespace Sample

/-- A frame in front of making two arrays of five arrays of ints each, these not made. -/
def forester : Frame :=
  { frame [0xc5, 0x00, 0x01, 0x02, 0xb1] [] 0 with
    cls := { cls with pool := #[.empty, .className "[[[I"] } }

/-- A machine with the counts on the stack, and with memory for three entries. -/
def planting : Machine :=
  ⟨{ heap := { capacity := some 3 } },
    { id := 0, frames := [forester], operands := #[⟨.int 2, 0⟩, ⟨.int 5, 0⟩] }⟩

theorem planting_offers : planting.Offers forester [] #[] [2, 5] :=
  ⟨rfl, ⟨[⟨.int 2, 0⟩, ⟨.int 5, 0⟩], rfl, .cons rfl (.cons rfl .nil)⟩, Nat.le_refl 0⟩

theorem forester_faces : forester.FacesTree "[[[I" 2 :=
  ⟨1, 2, rfl, ⟨[0xb1], rfl⟩, rfl⟩

theorem planting_room : planting.world.heap.Room [2, 5] (ArrayTree.size [2, 5]) where
  short := by simp [planting, Heap.checkLength, Heap.isTooLong, Heap.addressableElements]
  enough := by simp [planting, ArrayTree.size, List.range_succ]

end Sample

/-- A tree of three arrays is made where there is memory for three. -/
theorem Exec.step_plants_three : ∃ m' tree,
    step ⟨Engine.reentry [] 0, []⟩ {} Sample.planting = .ok .next m' ∧
      m'.thread.operands = #[⟨.array (tree []), 0⟩] ∧
      Sample.planting.world.heap.Planted "[[[I".toList [2, 5] tree m'.world.heap := by
  have plants := step_plants ⟨Engine.reentry [] 0, []⟩ {} Sample.planting_offers
    Sample.forester_faces (by decide) (by decide) (by simp) (.blank (some 3) none)
  obtain ⟨m', run, clear⟩ := plants.2 rfl Sample.planting_room
  obtain ⟨-, tree, operands, planted⟩ := plants.1 .next m' run clear
  exact ⟨m', tree, run, operands, planted⟩

end JavaMachine
