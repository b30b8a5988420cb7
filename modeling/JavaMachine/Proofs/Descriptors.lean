import JavaMachine.Descriptor

/-!
# What descriptors say

Reading a descriptor undoes writing it, and nothing else can be read.  A type is written by
`JType.encode`, and every type is, as long as no class name in it has a semicolon.  `JType.read`
gives the type whose descriptor stands at the front of a text, and there is never more than one: no
descriptor goes on where another one ends.

A position in a text is counted in bytes.  A text whose first bytes are those of a descriptor begins
with the descriptor, because a descriptor ends behind a character.

A method descriptor is split at the first closing parenthesis.  So a class among the arguments
cannot have a closing parenthesis in its name, although the class of the result can, and nothing
but a line feed is kept out of the name of the latter.
-/

namespace JavaMachine

/-! ## Texts -/

/-- The first bytes of a text are those of another one exactly when the text begins with it. -/
theorem extract_eq_iff_append {text front : String} {n : Nat} :
    n ≤ text.utf8ByteSize ∧ text.toUTF8.extract 0 n = front.toUTF8 ↔
      n = front.utf8ByteSize ∧ ∃ rest, text = front ++ rest := by
  rw [String.toUTF8_eq_toByteArray, String.toUTF8_eq_toByteArray]
  constructor
  · rintro ⟨within, bytes⟩
    have boundary : String.Pos.Raw.IsValid text ⟨n⟩ := by
      rw [String.Pos.Raw.isValid_iff_isValidUTF8_extract_zero]
      exact ⟨within, bytes ▸ front.isValidUTF8⟩
    obtain ⟨before, behind, rfl, place⟩ := String.Pos.Raw.isValid_iff_exists_append.mp boundary
    have size : n = before.toByteArray.size := congrArg String.Pos.Raw.byteIdx place
    rw [String.toByteArray_append, ByteArray.extract_append_eq_left size,
      String.toByteArray_inj] at bytes
    exact ⟨bytes ▸ size, behind, bytes ▸ rfl⟩
  · rintro ⟨rfl, rest, rfl⟩
    refine ⟨by rw [String.utf8ByteSize_append]; omega, ?_⟩
    rw [String.toByteArray_append]
    exact ByteArray.extract_append_eq_left rfl

section Cut

variable {c d : Char} {front text : List Char}

/-- A text is cut at the first place where a character stands. -/
theorem cut_append (absent : c ∉ front) (behind : List Char) :
    (front ++ c :: behind).takeWhile (· != c) = front ∧
      (front ++ c :: behind).dropWhile (· != c) = c :: behind := by
  have plain : ∀ x ∈ front, (x != c) = true := by
    intro x listed
    rw [bne_iff_ne]
    rintro rfl
    exact absent listed
  rw [List.takeWhile_append_of_pos plain, List.dropWhile_append_of_pos plain]
  simp

/-- What a cut leaves behind begins with the character, which is not in front of the cut. -/
theorem eq_append_of_cut (h : text.dropWhile (· != c) = d :: behind) :
    text = text.takeWhile (· != c) ++ c :: behind ∧ c ∉ text.takeWhile (· != c) := by
  have first : d = c := by
    have := List.head?_dropWhile_not (· != c) text
    simpa [h] using this
  have whole := List.takeWhile_append_dropWhile (p := (· != c)) (l := text)
  rw [h, first] at whole
  refine ⟨whole.symm, fun listed => ?_⟩
  have other := List.all_eq_true.mp List.all_takeWhile c listed
  simp at other

end Cut

namespace JType

variable {t : JType} {rest : List Char}

/-! ## One type -/

/-- No class name in the type has a semicolon. -/
def Writable : JType → Prop
  | reference className => ';' ∉ className.toList
  | array element => element.Writable
  | _ => True

theorem encode_ne_nil (t : JType) : t.encode ≠ [] := by
  cases t <;> simp [encode]

/-- A type is read back from the front of any text. -/
theorem read_encode (writable : t.Writable) (rest : List Char) :
    read (t.encode ++ rest) = .ok (t, rest) := by
  induction t with
  | reference className =>
      obtain ⟨name, behind⟩ := cut_append writable rest
      have text : (reference className).encode ++ rest =
          'L' :: (className.toList ++ ';' :: rest) := by simp [encode]
      rw [text, read, behind]
      simp only [name, String.ofList_toList]
  | array element ih =>
      have text : (array element).encode ++ rest = '[' :: (element.encode ++ rest) := rfl
      rw [text, read, ih writable]
  | _ => rfl

/-- What is read is the type of a descriptor at the front. -/
theorem eq_encode_of_read {text : List Char} (h : read text = .ok (t, rest)) :
    t.Writable ∧ text = t.encode ++ rest := by
  fun_induction read text generalizing t rest with
  | case10 text first behind closed =>
    obtain ⟨whole, absent⟩ := eq_append_of_cut closed
    cases h
    refine ⟨by rwa [Writable, String.toList_ofList], ?_⟩
    simpa [encode] using whole
  | case12 text element behind inner ih =>
    cases h
    obtain ⟨writable, same⟩ := ih inner
    exact ⟨writable, congrArg ('[' :: ·) same⟩
  | case11 | case13 | case14 => cases h
  | _ =>
    cases h
    exact ⟨trivial, rfl⟩

/-- The first bytes of a text, so many of them, are the descriptor of a type. -/
structure Opens (t : JType) (n : Nat) (text : String) : Prop where
  /-- The type has a descriptor. -/
  writable : t.Writable
  /-- The text has so many bytes. -/
  within : n ≤ text.utf8ByteSize
  /-- They are those of the descriptor. -/
  bytes : text.toUTF8.extract 0 n = t.descriptor.toUTF8

theorem opens_iff {n : Nat} {text : String} : t.Opens n text ↔
    t.Writable ∧ n = t.descriptor.utf8ByteSize ∧ ∃ rest, text = t.descriptor ++ rest := by
  rw [← extract_eq_iff_append]
  exact ⟨fun h => ⟨h.writable, h.within, h.bytes⟩, fun h => ⟨h.1, h.2.1, h.2.2⟩⟩

/-- A type is decoded exactly when its descriptor is the beginning of the text. -/
theorem decode_eq_ok_iff {n : Nat} {text : String} : decode text = .ok (t, n) ↔ t.Opens n text := by
  rw [opens_iff]
  constructor
  · intro h
    cases run : read text.toList with
    | error part => simp [decode, run] at h
    | ok found =>
        obtain ⟨t', rest⟩ := found
        simp only [decode, run] at h
        cases h
        obtain ⟨writable, whole⟩ := eq_encode_of_read run
        have same : text = t.descriptor ++ String.ofList rest := by
          rw [descriptor, ← String.ofList_append, ← whole, String.ofList_toList]
        refine ⟨writable, ?_, _, same⟩
        rw [same, String.utf8ByteSize_append, Nat.add_sub_cancel]
  · rintro ⟨writable, rfl, rest, rfl⟩
    have whole : (t.descriptor ++ rest).toList = t.encode ++ rest.toList := by
      rw [String.toList_append, descriptor, String.toList_ofList]
    rw [decode, whole, read_encode writable]
    simp only [String.ofList_toList, String.utf8ByteSize_append, Nat.add_sub_cancel]

/-- Whatever cannot be decoded is an invalid descriptor. -/
theorem decode_total (text : String) :
    (∃ t n, decode text = .ok (t, n)) ∨ ∃ part, decode text = .error (.invalidDescriptor part) := by
  cases run : read text.toList with
  | ok found =>
      left
      simp only [decode, run]
      exact ⟨_, _, rfl⟩
  | error part =>
      right
      simp only [decode, run]
      exact ⟨_, rfl⟩

end JType

namespace MethodType

open JType

variable {whole : Fault} {fuel : Nat} {args result text : List Char} {types : List JType}

/-! ## Arguments -/

/-- A type that an argument can have. -/
def IsArgument (t : JType) : Prop := t.Writable ∧ t ≠ .void

theorem flatMap_encode_eq_nil : types.flatMap JType.encode = [] ↔ types = [] := by
  cases types with
  | nil => simp
  | cons t types => simp [encode_ne_nil]

theorem readArgs_nil : readArgs whole fuel [] = .ok types ↔
    [] = types.flatMap JType.encode ∧ ∀ t ∈ types, IsArgument t := by
  rw [readArgs]
  constructor
  · intro h
    cases h
    exact ⟨rfl, nofun⟩
  · rintro ⟨same, -⟩
    rw [flatMap_encode_eq_nil.mp same.symm]

/-- An argument is read in front of the others, unless it is void. -/
theorem readArgs_succ {t : JType} {rest : List Char} (first : read text = .ok (t, rest)) :
    readArgs whole (fuel + 1) text =
      if t = .void then .error whole else (readArgs whole fuel rest).map (t :: ·) := by
  cases text with
  | nil => cases first
  | cons c text =>
      rw [readArgs, first]
      · cases t <;> rfl
      · exact List.cons_ne_nil c text

/-- Arguments are read one after the other until the text ends. -/
theorem readArgs_eq_ok_iff (enough : text.length ≤ fuel) :
    readArgs whole fuel text = .ok types ↔
      text = types.flatMap JType.encode ∧ ∀ t ∈ types, IsArgument t := by
  induction fuel generalizing text types with
  | zero =>
      obtain rfl := List.eq_nil_of_length_eq_zero (Nat.le_zero.mp enough)
      exact readArgs_nil
  | succ fuel ih =>
      by_cases empty : text = []
      · subst empty
        exact readArgs_nil
      constructor
      · intro h
        cases run : read text with
        | error part =>
            rw [readArgs, run] at h
            · cases h
            · exact empty
        | ok found =>
            obtain ⟨t, rest⟩ := found
            rw [readArgs_succ run] at h
            split at h
            · cases h
            next proper =>
              cases inner : readArgs whole fuel rest with
              | error e => rw [inner] at h; cases h
              | ok types =>
                  rw [inner] at h
                  cases h
                  obtain ⟨writable, same⟩ := eq_encode_of_read run
                  have shorter : rest.length ≤ fuel := by
                    have := List.length_pos_iff.mpr (encode_ne_nil t)
                    rw [same, List.length_append] at enough
                    omega
                  obtain ⟨rfl, arguments⟩ := (ih shorter).mp inner
                  exact ⟨same, List.forall_mem_cons.mpr ⟨⟨writable, proper⟩, arguments⟩⟩
      · rintro ⟨same, arguments⟩
        cases types with
        | nil => exact absurd same empty
        | cons t types =>
            rw [List.flatMap_cons] at same
            obtain ⟨⟨writable, proper⟩, others⟩ := List.forall_mem_cons.mp arguments
            have shorter : (types.flatMap JType.encode).length ≤ fuel := by
              have := List.length_pos_iff.mpr (encode_ne_nil t)
              rw [same, List.length_append] at enough
              omega
            rw [readArgs_succ (same ▸ read_encode writable _), if_neg proper,
              (ih shorter).mpr ⟨rfl, others⟩]
            rfl

/-- What is wrong with arguments is the whole descriptor or a part of it. -/
theorem readArgs_error {e : Fault} (h : readArgs whole fuel text = .error e) :
    e = whole ∨ ∃ part, e = .invalidDescriptor part := by
  fun_induction readArgs whole fuel text with
  | case1 => cases h
  | case2 | case3 =>
      cases h
      exact .inr ⟨_, rfl⟩
  | case4 =>
      cases h
      exact .inl rfl
  | case5 fuel text empty t rest proper read ih =>
      cases inner : readArgs whole fuel rest with
      | ok types => rw [inner] at h; cases h
      | error e' =>
          rw [inner] at h
          cases h
          exact ih inner

/-! ## Methods -/

/-- A method descriptor is cut at the first closing parenthesis, and its last part is on one
line. -/
theorem split_eq_some_iff : split text = some (args, result) ↔
    text = '(' :: (args ++ ')' :: result) ∧ ')' ∉ args ∧ result ≠ [] ∧ '\n' ∉ result := by
  constructor
  · intro h
    unfold split at h
    split at h
    next rest =>
      split at h
      next closing result' cut =>
        obtain ⟨whole, closed⟩ := eq_append_of_cut cut
        split at h
        · cases h
        next fit =>
          cases h
          simp only [Bool.or_eq_true, List.isEmpty_iff, List.contains_iff_mem, not_or] at fit
          exact ⟨congrArg ('(' :: ·) whole, closed, fit⟩
      · cases h
    · cases h
  · rintro ⟨rfl, closed, given, line⟩
    obtain ⟨front, behind⟩ := cut_append closed result
    rw [split, behind]
    simp [front, given, line]

/-- A text is the descriptor of a method type. -/
structure Describes (text : String) (m : MethodType) : Prop where
  /-- The arguments are written one after the other in parentheses, and the result behind them. -/
  written : text.toList = '(' :: (m.args.flatMap JType.encode ++ ')' :: m.result.encode)
  /-- The arguments have descriptors and are not void. -/
  arguments : ∀ t ∈ m.args, IsArgument t
  /-- The result has a descriptor. -/
  writable : m.result.Writable
  /-- No class name among the arguments closes the parentheses. -/
  closed : ')' ∉ m.args.flatMap JType.encode
  /-- The result is on one line. -/
  line : '\n' ∉ m.result.encode

/-- A method descriptor is parsed exactly into what it describes. -/
theorem parse_eq_ok_iff {text : String} {m : MethodType} :
    parse text = .ok m ↔ Describes text m := by
  constructor
  · intro h
    unfold parse at h
    split at h
    · cases h
    next args result cut =>
      obtain ⟨whole, closed, -, line⟩ := split_eq_some_iff.mp cut
      split at h
      · cases h
      next t rest run =>
        obtain ⟨writable, same⟩ := eq_encode_of_read run
        split at h
        next done =>
          cases inner : readArgs (.invalidDescriptor text) args.length args with
          | error e => rw [inner] at h; cases h
          | ok types =>
              rw [inner] at h
              cases h
              obtain ⟨rfl, arguments⟩ := (readArgs_eq_ok_iff (Nat.le_refl _)).mp inner
              obtain rfl := List.isEmpty_iff.mp done
              rw [List.append_nil] at same
              subst same
              exact ⟨whole, arguments, writable, closed, line⟩
        · cases h
  · rintro ⟨written, arguments, writable, closed, line⟩
    have cut := split_eq_some_iff.mpr ⟨written, closed, encode_ne_nil m.result, line⟩
    have result : read m.result.encode = .ok (m.result, []) := by
      have := read_encode writable []
      rwa [List.append_nil] at this
    rw [parse, cut]
    simp only [result, List.isEmpty_nil, if_true,
      (readArgs_eq_ok_iff (Nat.le_refl _)).mpr ⟨rfl, arguments⟩]
    rfl

/-- Whatever cannot be parsed is an invalid descriptor. -/
theorem parse_total (text : String) :
    (∃ m, parse text = .ok m) ∨ ∃ part, parse text = .error (.invalidDescriptor part) := by
  cases run : parse text with
  | ok m => exact .inl ⟨m, rfl⟩
  | error e =>
      right
      suffices h : ∃ part, e = .invalidDescriptor part by
        obtain ⟨part, rfl⟩ := h
        exact ⟨part, rfl⟩
      unfold parse at run
      split at run
      · cases run
        exact ⟨_, rfl⟩
      next args result cut =>
        split at run
        · cases run
          exact ⟨_, rfl⟩
        · split at run
          · cases inner : readArgs (.invalidDescriptor text) args.length args with
            | ok types => rw [inner] at run; cases run
            | error e' =>
                rw [inner] at run
                cases run
                obtain rfl | invalid := readArgs_error inner
                · exact ⟨_, rfl⟩
                · exact invalid
          · cases run
            exact ⟨_, rfl⟩

end MethodType

/-! ## The grammar -/

/-- Descriptors are read exactly as they are written.

A type is decoded from a text, with a number of bytes, exactly when these are the first bytes of the
text and make up the descriptor of the type.  A method type is parsed from a text exactly when the
text is its descriptor: its arguments, none of them void, one after the other in parentheses that
none of them closes, and behind them the result on one line.  Every other text is an invalid
descriptor. -/
theorem descriptors_exact (text : String) :
    (∀ (t : JType) (n : Nat), JType.decode text = .ok (t, n) ↔ t.Opens n text) ∧
    ((∃ (t : JType) (n : Nat), t.Opens n text) ∨
      ∃ part, JType.decode text = .error (.invalidDescriptor part)) ∧
    (∀ m, MethodType.parse text = .ok m ↔ MethodType.Describes text m) ∧
    ((∃ m, MethodType.Describes text m) ∨
      ∃ part, MethodType.parse text = .error (.invalidDescriptor part)) := by
  simp only [← JType.decode_eq_ok_iff, ← MethodType.parse_eq_ok_iff, implies_true, true_and]
  exact ⟨JType.decode_total text, MethodType.parse_total text⟩

/-- A position counts bytes: the class name has one character of two bytes. -/
example : JType.decode "[Lé;I" = .ok (.array (.reference "é"), 5) := by rfl

end JavaMachine
