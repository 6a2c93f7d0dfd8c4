import LocalizedText.Message.Clause
import Mathlib.Data.List.Flatten

/-!
# The bytes of a text

A text is stored as its bytes in UTF-8, and a place in it is a number of bytes. Only some places lie
between two characters, and only between two such places is there a slice of the text.

A byte below 128 is a character of its own. So characters of ASCII, such as blanks and braces, are
found by looking at the bytes one by one, although other characters have several.
-/

namespace LocalizedText

namespace Text

def utf8 (text : List Char) : List UInt8 :=
  text.flatMap String.utf8EncodeChar

@[simp]
theorem utf8_nil : utf8 [] = [] :=
  rfl

@[simp]
theorem utf8_append (front back : List Char) : utf8 (front ++ back) = utf8 front ++ utf8 back :=
  List.flatMap_append

@[simp]
theorem utf8_cons (character : Char) (rest : List Char) :
    utf8 (character :: rest) = String.utf8EncodeChar character ++ utf8 rest :=
  List.flatMap_cons

/-- A byte below 128 stands for a character of its own. -/
theorem eq_of_mem_utf8EncodeChar {character : Char} {byte : UInt8}
    (member : byte ∈ String.utf8EncodeChar character) (ascii : byte.toNat < 128) :
    character = Char.ofNat byte.toNat := by
  simp only [String.utf8EncodeChar] at member
  split at member
  · next small =>
      rw [List.mem_singleton] at member
      have same : byte.toNat = character.toNat := by
        rw [member, UInt8.toNat_ofNat']
        exact Nat.mod_eq_of_lt (by omega)
      rw [same, Char.ofNat_toNat]
  · -- The bytes of the longer forms all have their first bit set.
    exfalso
    split at member
    · simp only [List.mem_cons, List.not_mem_nil, or_false] at member
      rcases member with rfl | rfl <;> simp only [UInt8.toNat_ofNat'] at ascii <;> omega
    · split at member
      · simp only [List.mem_cons, List.not_mem_nil, or_false] at member
        rcases member with rfl | rfl | rfl <;> simp only [UInt8.toNat_ofNat'] at ascii <;> omega
      · simp only [List.mem_cons, List.not_mem_nil, or_false] at member
        rcases member with rfl | rfl | rfl | rfl <;> simp only [UInt8.toNat_ofNat'] at ascii <;>
          omega

/-- A byte below 128 is the only one of its character. -/
theorem utf8EncodeChar_ofNat {byte : UInt8} (ascii : byte.toNat < 128) :
    String.utf8EncodeChar (Char.ofNat byte.toNat) = [byte] := by
  have valid : byte.toNat.isValidChar := Or.inl (by omega)
  have code : (Char.ofNat byte.toNat).val.toNat = byte.toNat := by
    rw [Char.ofNat, dif_pos valid]
    rfl
  simp only [String.utf8EncodeChar, code]
  rw [if_pos (by omega), UInt8.ofNat_toNat]

/-- The bytes of a character that is no brace are no braces. -/
theorem apart_of_mem_utf8EncodeChar {character : Char} (noOpen : character ≠ '\x7b')
    (noClose : character ≠ '\x7d') :
    ∀ byte ∈ String.utf8EncodeChar character, byte ≠ 0x7b ∧ byte ≠ 0x7d := by
  intro byte member
  constructor
  · rintro rfl
    exact noOpen (eq_of_mem_utf8EncodeChar member (by decide))
  · rintro rfl
    exact noClose (eq_of_mem_utf8EncodeChar member (by decide))

theorem utf8_open (rest : List Char) : utf8 ('\x7b' :: rest) = 0x7b :: utf8 rest :=
  rfl

theorem utf8_close (rest : List Char) : utf8 ('\x7d' :: rest) = 0x7d :: utf8 rest :=
  rfl

def byteLength (text : List Char) : Nat :=
  (utf8 text).length

@[simp]
theorem byteLength_nil : byteLength [] = 0 :=
  rfl

@[simp]
theorem byteLength_append (front back : List Char) :
    byteLength (front ++ back) = byteLength front + byteLength back := by
  simp [byteLength]

@[simp]
theorem byteLength_cons (character : Char) (rest : List Char) :
    byteLength (character :: rest) = character.utf8Size + byteLength rest := by
  simp [byteLength, String.length_utf8EncodeChar]

section Slices

variable {text front rest inside : List Char} {count start stop : Nat}

/--
A text of so many bytes and what is left after it, unless the bytes end within a character or there
are not so many.
-/
def splitBytes? : (count : Nat) → List Char → Option (List Char × List Char)
  | 0, text => some ([], text)
  | _ + 1, [] => none
  | count + 1, character :: rest =>
      if character.utf8Size ≤ count + 1 then
        (splitBytes? (count + 1 - character.utf8Size) rest).map fun parts =>
          (character :: parts.1, parts.2)
      else none

/-- The part of a text between two places, if both lie between characters of it. -/
def slice? (text : List Char) (start stop : Nat) : Option (List Char) := do
  let (_, rest) ← splitBytes? start text
  if start ≤ stop then (splitBytes? (stop - start) rest).map Prod.fst else none

theorem splitBytes?_byteLength (front rest : List Char) :
    splitBytes? (byteLength front) (front ++ rest) = some (front, rest) := by
  induction front with
  | nil => simp [splitBytes?]
  | cons character front inductionHypothesis =>
      have positive := character.utf8Size_pos
      obtain ⟨count, total⟩ : ∃ count, byteLength (character :: front) = count + 1 :=
        Nat.exists_eq_succ_of_ne_zero (by rw [byteLength_cons]; omega)
      have left : count + 1 - character.utf8Size = byteLength front := by
        rw [← total, byteLength_cons, Nat.add_sub_cancel_left]
      have fits : character.utf8Size ≤ count + 1 := by
        rw [← total, byteLength_cons]
        exact Nat.le_add_right _ _
      rw [total, List.cons_append, splitBytes?, if_pos fits, left, inductionHypothesis]
      rfl

theorem splitBytes?_eq_some_iff :
    splitBytes? count text = some (front, rest) ↔
      text = front ++ rest ∧ count = byteLength front := by
  constructor
  · intro split
    induction text generalizing count front with
    | nil =>
        cases count with
        | zero => cases split; exact ⟨rfl, rfl⟩
        | succ count => cases split
    | cons character tail inductionHypothesis =>
        cases count with
        | zero => cases split; exact ⟨rfl, rfl⟩
        | succ count =>
            rw [splitBytes?] at split
            split at split
            · next fits =>
                rcases Option.map_eq_some_iff.mp split with ⟨⟨front, _⟩, found, ⟨⟩⟩
                rcases inductionHypothesis found with ⟨rfl, left⟩
                refine ⟨rfl, ?_⟩
                simp only [byteLength_cons] at left ⊢
                omega
            · cases split
  · rintro ⟨rfl, rfl⟩
    exact splitBytes?_byteLength front rest

/-- There is a slice exactly between two places that lie between characters. -/
theorem slice?_eq_some_iff :
    slice? text start stop = some inside ↔
      ∃ before after, text = before ++ (inside ++ after) ∧ start = byteLength before ∧
        stop = byteLength before + byteLength inside := by
  constructor
  · intro sliced
    rcases Option.bind_eq_some_iff.mp sliced with ⟨⟨before, rest⟩, found, goesOn⟩
    rcases splitBytes?_eq_some_iff.mp found with ⟨rfl, rfl⟩
    simp only at goesOn
    split at goesOn
    · next ordered =>
        rcases Option.map_eq_some_iff.mp goesOn with ⟨⟨inside, after⟩, ends, ⟨⟩⟩
        rcases splitBytes?_eq_some_iff.mp ends with ⟨rfl, length⟩
        refine ⟨before, after, rfl, rfl, ?_⟩
        simp only at ordered length ⊢
        omega
    · cases goesOn
  · rintro ⟨before, after, rfl, rfl, rfl⟩
    simp [slice?, splitBytes?_byteLength]

end Slices

/-- The byte at a place of a text. -/
def byteAt? (text : List Char) (position : Nat) : Option UInt8 :=
  (utf8 text)[position]?

/-- The place after the bytes from a place on that have a property. -/
def skipBytes (text : List Char) (property : UInt8 → Bool) (position : Nat) : Nat :=
  position + (((utf8 text).drop position).takeWhile property).length

theorem le_skipBytes (text : List Char) (property : UInt8 → Bool) (position : Nat) :
    position ≤ skipBytes text property position :=
  Nat.le_add_right _ _

/-- A place in a text lies between two characters and leaves a rest of the text. -/
def RestAt (text : List Char) (position : Nat) (rest : List Char) : Prop :=
  ∃ before, text = before ++ rest ∧ position = byteLength before

section Places

variable {text rest inside : List Char} {position : Nat}

theorem RestAt.start (text : List Char) : RestAt text 0 text :=
  ⟨[], rfl, rfl⟩

theorem RestAt.after (place : RestAt text position (inside ++ rest)) :
    RestAt text (position + byteLength inside) rest := by
  rcases place with ⟨before, rfl, rfl⟩
  exact ⟨before ++ inside, (List.append_assoc ..).symm, (byteLength_append ..).symm⟩

theorem RestAt.tail {character : Char} (place : RestAt text position (character :: rest)) :
    RestAt text (position + character.utf8Size) rest := by
  have further : RestAt text (position + byteLength [character]) rest := RestAt.after place
  rwa [byteLength_cons, byteLength_nil, Nat.add_zero] at further

/-- A character of ASCII takes one byte. -/
theorem RestAt.next {character : Char} (place : RestAt text position (character :: rest))
    (ascii : character.utf8Size = 1) : RestAt text (position + 1) rest :=
  ascii ▸ place.tail

theorem RestAt.slice? (place : RestAt text position (inside ++ rest)) :
    slice? text position (position + byteLength inside) = some inside := by
  rcases place with ⟨before, rfl, rfl⟩
  exact slice?_eq_some_iff.mpr ⟨before, rest, rfl, rfl, rfl⟩

/-- A rest is left by one place only. -/
theorem RestAt.unique {other : Nat} (place : RestAt text position rest)
    (same : RestAt text other rest) : position = other := by
  rcases place with ⟨before, rfl, rfl⟩
  rcases same with ⟨front, whole, rfl⟩
  rw [List.append_cancel_right whole]

/-- What lies between two places is the slice of the text between them. -/
theorem RestAt.slice?_between {stop : Nat} (place : RestAt text position (inside ++ rest))
    (ends : RestAt text stop rest) : Text.slice? text position stop = some inside := by
  rw [ends.unique place.after]
  exact place.slice?

theorem RestAt.le_byteLength (place : RestAt text position rest) :
    position ≤ byteLength text := by
  rcases place with ⟨before, rfl, rfl⟩
  rw [byteLength_append]
  exact Nat.le_add_right _ _

theorem RestAt.eq_byteLength_iff (place : RestAt text position rest) :
    position = byteLength text ↔ rest = [] := by
  rcases place with ⟨before, rfl, rfl⟩
  rw [byteLength_append]
  cases rest with
  | nil => simp
  | cons character rest =>
      have positive := character.utf8Size_pos
      simp only [byteLength_cons, reduceCtorEq, iff_false]
      omega

theorem RestAt.drop_utf8 (place : RestAt text position rest) :
    (utf8 text).drop position = utf8 rest := by
  rcases place with ⟨before, rfl, rfl⟩
  rw [utf8_append, byteLength, List.drop_left]

/-- The bytes after a place are the bytes of the rest. -/
theorem RestAt.byteAt?_add (place : RestAt text position rest) (offset : Nat) :
    byteAt? text (position + offset) = (utf8 rest)[offset]? := by
  rw [byteAt?, ← List.getElem?_drop, place.drop_utf8]

theorem RestAt.byteAt?_of_nil (place : RestAt text position []) : byteAt? text position = none :=
  place.byteAt?_add 0

/-- The bytes of the first character of the rest are at the place and after it. -/
theorem RestAt.exists_byteAt? {character : Char} {offset : Nat}
    (place : RestAt text position (character :: rest)) (inside : offset < character.utf8Size) :
    ∃ byte ∈ String.utf8EncodeChar character, byteAt? text (position + offset) = some byte := by
  rw [← String.length_utf8EncodeChar] at inside
  refine ⟨_, List.getElem_mem inside, ?_⟩
  rw [place.byteAt?_add, utf8_cons, List.getElem?_append_left inside,
    List.getElem?_eq_getElem inside]

/-- A byte below 128 is at a place exactly when the rest starts with its character. -/
theorem RestAt.byteAt?_eq_some_iff (place : RestAt text position rest) {byte : UInt8}
    (ascii : byte.toNat < 128) :
    byteAt? text position = some byte ↔ ∃ tail, rest = Char.ofNat byte.toNat :: tail := by
  constructor
  · intro here
    cases rest with
    | nil =>
        rw [place.byteAt?_of_nil] at here
        cases here
    | cons character tail =>
        rcases place.exists_byteAt? character.utf8Size_pos with ⟨first, member, found⟩
        rw [Nat.add_zero, here] at found
        cases found
        exact ⟨tail, by rw [eq_of_mem_utf8EncodeChar member ascii]⟩
  · rintro ⟨tail, rfl⟩
    rw [← Nat.add_zero position, place.byteAt?_add, utf8_cons, utf8EncodeChar_ofNat ascii]
    rfl

end Places

/-- A property of bytes is one of characters: all bytes of a character agree with it. -/
def IsBytewise (property : Char → Bool) (onBytes : UInt8 → Bool) : Prop :=
  ∀ character, ∀ byte ∈ String.utf8EncodeChar character, onBytes byte = property character

section Bytewise

variable {property : Char → Bool} {onBytes : UInt8 → Bool}

theorem IsBytewise.takeWhile_utf8 (bytewise : IsBytewise property onBytes) (text : List Char) :
    (utf8 text).takeWhile onBytes = utf8 (text.takeWhile property) := by
  induction text with
  | nil => rfl
  | cons character rest inductionHypothesis =>
      rw [utf8_cons, List.takeWhile_cons]
      have agree := bytewise character
      cases has : property character with
      | true =>
          rw [has] at agree
          rw [List.takeWhile_append_of_pos agree, inductionHypothesis]
          simp
      | false =>
          rw [has] at agree
          cases bytes : String.utf8EncodeChar character with
          | nil =>
              have positive := character.utf8Size_pos
              rw [← String.length_utf8EncodeChar, bytes] at positive
              cases positive
          | cons byte others =>
              rw [bytes] at agree
              simp [agree byte (List.mem_cons_self ..)]

/-- Skipping bytes is skipping characters. -/
theorem RestAt.skipBytes {text rest : List Char} {position : Nat}
    (place : RestAt text position rest) (bytewise : IsBytewise property onBytes) :
    RestAt text (skipBytes text onBytes position) (rest.dropWhile property) := by
  have skipped : Text.skipBytes text onBytes position =
      position + byteLength (rest.takeWhile property) := by
    rw [Text.skipBytes, place.drop_utf8, bytewise.takeWhile_utf8]
    rfl
  rw [skipped]
  apply RestAt.after
  rwa [List.takeWhile_append_dropWhile]

end Bytewise

end Text

end LocalizedText
