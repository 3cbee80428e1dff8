import IncludeTidy.Proofs.Output

namespace IncludeTidy.Text

-- An encoding in which one item has a code of its own that no other item uses.
structure Lone (encode : α → List β) (item : α) (code : β) : Prop where
  itself : encode item = [code]
  apart : ∀ other, other ≠ item → code ∉ encode other
  filled : ∀ other, encode other ≠ []

variable [DecidableEq α] [DecidableEq β] {encode : α → List β} {item stop : α} {code : β}

theorem terminated_cons (stop first : β) (items : List β) :
    terminated stop (first :: items) =
      if first = stop then ([] :: (terminated stop items).1, (terminated stop items).2)
      else match (terminated stop items).1 with
        | [] => ([], first :: (terminated stop items).2)
        | line :: later => ((first :: line) :: later, (terminated stop items).2) := rfl

-- Codes without the stop go in front of the first line, whole or unfinished.
theorem terminated_free {front : List β} (free : code ∉ front) (items : List β) :
    terminated code (front ++ items) =
      match (terminated code items).1 with
      | [] => ([], front ++ (terminated code items).2)
      | line :: later => ((front ++ line) :: later, (terminated code items).2) := by
  induction front with
  | nil =>
    rw [List.nil_append]
    rcases terminated code items with ⟨_ | ⟨line, later⟩, unfinished⟩ <;> rfl
  | cons first front ih =>
    rw [List.mem_cons, not_or] at free
    rw [List.cons_append, terminated_cons, if_neg (Ne.symm free.1), ih free.2]
    cases (terminated code items).1 <;> rfl

theorem terminated_encoded (lone : Lone encode stop code) (items : List α) :
    terminated code (items.flatMap encode) =
      ((terminated stop items).1.map (List.flatMap encode),
        (terminated stop items).2.flatMap encode) := by
  induction items with
  | nil => rfl
  | cons item rest ih =>
    rw [List.flatMap_cons]
    by_cases same : item = stop
    · subst same
      simp [lone.itself, terminated_cons, ih]
    · rw [terminated_free (lone.apart item same), terminated_cons, if_neg same, ih]
      cases (terminated stop rest).1 <;> simp

theorem withoutLast_encoded (lone : Lone encode item code) (items : List α) :
    withoutLast code (items.flatMap encode) = (withoutLast item items).flatMap encode := by
  rcases List.eq_nil_or_concat items with rfl | ⟨front, last, rfl⟩
  · simp [withoutLast]
  · rw [List.concat_eq_append, List.flatMap_append, List.flatMap_singleton]
    by_cases same : last = item
    · subst same
      simp [withoutLast, lone.itself]
    · obtain ⟨before, final, parts⟩ := List.eq_nil_or_concat (encode last) |>.resolve_left
        (lone.filled last)
      have other : final ≠ code := by
        intro equal
        apply lone.apart last same
        rw [parts, equal]
        simp
      rw [parts]
      simp [withoutLast, same, other, parts]

theorem ofNat_inj {m n : Nat} (small : m < 256) (little : n < 256)
    (same : UInt8.ofNat m = UInt8.ofNat n) : m = n := by
  have values := congrArg UInt8.toNat same
  rwa [UInt8.toNat_ofNat_of_lt' small, UInt8.toNat_ofNat_of_lt' little] at values

-- Every byte of an encoding has its highest bit set, unless it is the only one.
theorem utf8EncodeChar_high {c : Char} (long : ¬ c.toNat ≤ 127)
    (member : byte ∈ String.utf8EncodeChar c) : ∃ n, 128 ≤ n ∧ n < 256 ∧ byte = UInt8.ofNat n := by
  have size : ¬ c.val.toNat ≤ 127 := long
  unfold String.utf8EncodeChar at member
  simp only [size, if_false] at member
  split at member
  · simp only [List.mem_cons, List.not_mem_nil, or_false] at member
    rcases member with rfl | rfl <;> exact ⟨_, by omega, by omega, rfl⟩
  · split at member
    · simp only [List.mem_cons, List.not_mem_nil, or_false] at member
      rcases member with rfl | rfl | rfl <;> exact ⟨_, by omega, by omega, rfl⟩
    · simp only [List.mem_cons, List.not_mem_nil, or_false] at member
      rcases member with rfl | rfl | rfl | rfl <;> exact ⟨_, by omega, by omega, rfl⟩

theorem lone_ascii (c : Char) (ascii : c.toNat ≤ 127) :
    Lone String.utf8EncodeChar c (UInt8.ofNat c.toNat) where
  itself := by
    have small : c.val.toNat ≤ 127 := ascii
    unfold String.utf8EncodeChar
    simp only [small, if_true]
    rfl
  apart := by
    intro other differs member
    by_cases short : other.val.toNat ≤ 127
    · unfold String.utf8EncodeChar at member
      simp only [short, if_true, List.mem_singleton] at member
      have same : c.toNat = other.val.toNat := ofNat_inj (by omega) (by omega) member
      exact differs (Char.ext (UInt32.toNat_inj.mp same.symm))
    · obtain ⟨n, high, bound, same⟩ := utf8EncodeChar_high short member
      have equal := ofNat_inj (by omega) bound same
      omega
  filled := fun _ => String.utf8EncodeChar_ne_nil

theorem toUTF8_encoded (text : String) :
    text.toUTF8.toList = text.toList.flatMap String.utf8EncodeChar := by
  rw [toList_data, String.toUTF8_eq_toByteArray, ← String.utf8Encode_toList, List.utf8Encode,
    List.toList_data_toByteArray]

theorem decode_encoded (cs : List Char) :
    decode (cs.flatMap String.utf8EncodeChar) = .ok (String.ofList cs) := by
  have whole : String.fromUTF8? cs.utf8Encode = some (String.ofList cs) := by
    unfold String.fromUTF8?
    rw [dif_pos ByteArray.isValidUTF8_utf8Encode]
    exact congrArg some (String.toByteArray_inj.mp String.toByteArray_ofList.symm)
  unfold decode
  rw [List.utf8Encode] at whole
  rw [whole]

theorem decode_ok_iff (bytes : List UInt8) (line : String) :
    decode bytes = .ok line ↔ bytes = line.toUTF8.toList := by
  constructor
  · intro decoded
    unfold decode at decoded
    split at decoded
    · rename_i found valid
      cases decoded
      unfold String.fromUTF8? at valid
      split at valid
      · cases Option.some.inj valid
        rw [toList_data]
        exact List.toList_data_toByteArray.symm
      · cases valid
    · cases decoded
  · rintro rfl
    rw [toUTF8_encoded, decode_encoded, String.ofList_toList]

theorem decode_fault {bytes : List UInt8} (decoded : decode bytes = .error fault) :
    fault = .notText := by
  unfold decode at decoded
  split at decoded
  · cases decoded
  · cases decoded
    rfl

theorem decode_error_iff (bytes : List UInt8) :
    decode bytes = .error .notText ↔ ∀ line : String, bytes ≠ line.toUTF8.toList := by
  constructor
  · intro decoded line encoded
    rw [(decode_ok_iff _ _).mpr encoded] at decoded
    cases decoded
  · intro broken
    cases decoded : decode bytes with
    | ok line => exact absurd ((decode_ok_iff _ _).mp decoded) (broken line)
    | error fault => rw [decode_fault decoded]

theorem decode_line (line : List Char) :
    decode (withoutLast 13 (line.flatMap String.utf8EncodeChar)) =
      .ok (String.ofList (withoutLast '\r' line)) := by
  have lone : Lone String.utf8EncodeChar '\r' 13 := lone_ascii '\r' (by decide)
  rw [withoutLast_encoded lone, decode_encoded]

-- No byte of a longer encoding is an ASCII byte, so cutting the bytes at line feeds and decoding
-- each piece comes to the same as cutting the text.
theorem reads_text (text : String) :
    ByteSource.reads ⟨text.toUTF8.toList, none⟩ = (lines text).map .ok := by
  have lone : Lone String.utf8EncodeChar '\n' 10 := lone_ascii '\n' (by decide)
  have empty : ∀ line : List Char,
      (line.flatMap String.utf8EncodeChar).isEmpty = line.isEmpty := by
    intro line
    cases line with
    | nil => rfl
    | cons c rest => simp [String.utf8EncodeChar_ne_nil]
  unfold ByteSource.reads lines
  rw [toUTF8_encoded, terminated_encoded lone]
  simp only [List.map_map, List.map_append, empty, decode_encoded]
  congr 1
  · exact List.map_congr_left fun line _ => decode_line line
  · split <;> rfl

-- One carriage return goes, and only in front of a line feed.
example : lines "é\r\n\r\r\n\nx\r" = ["é", "\r", "", "x\r"] := by decide +kernel

end IncludeTidy.Text

namespace IncludeTidy.Classifier

-- No line is cut in another place or decoded to another text, so no classification can tell the two
-- apart; the last part compares all that is offered, refused reports included.
theorem processSource_text [Receiver σ ε] (c : Classifier) (receiver : σ) (text : String) :
    let source : Text.ByteSource := ⟨text.toUTF8.toList, none⟩
    let recorded : Recorded σ := ⟨receiver, []⟩
    source.reads = (Text.lines text).map .ok ∧
      c.processSource receiver source = c.processLines receiver (Text.lines text) ∧
      (c.processSource recorded source).receiver.offered =
        (c.processLines recorded (Text.lines text)).receiver.offered := by
  intro source recorded
  have reads : source.reads = (Text.lines text).map .ok := Text.reads_text text
  unfold processSource processLines
  rw [reads]
  exact ⟨rfl, rfl, rfl⟩

end IncludeTidy.Classifier
