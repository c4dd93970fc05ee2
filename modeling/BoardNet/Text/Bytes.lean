namespace BoardNet.Text

def bytes (text : String) : List UInt8 := text.toByteArray.data.toList

/-- The text with these UTF-8 bytes, if they are valid. -/
def ofBytes? (data : List UInt8) : Option String := String.fromUTF8? ⟨data.toArray⟩

/-- A text has as many bytes as its UTF-8 size says. -/
theorem length_bytes (text : String) : (bytes text).length = text.utf8ByteSize := rfl

/-- Reading the bytes of a text gives it back. -/
theorem ofBytes?_bytes (text : String) : ofBytes? (bytes text) = some text := by
  simp [ofBytes?, bytes, String.fromUTF8?, String.fromUTF8, text.isValidUTF8]

/-- Only the bytes of a text read as that text. -/
theorem bytes_of_ofBytes? {data : List UInt8} {text : String}
    (read : ofBytes? data = some text) : bytes text = data := by
  unfold ofBytes? String.fromUTF8? at read
  split at read
  · simp only [Option.some.injEq] at read
    subst read
    simp [bytes, String.fromUTF8]
  · simp at read

/-- The bytes of a text are those of its characters, in order. -/
theorem bytes_eq_flatMap (text : String) :
    bytes text = text.toList.flatMap String.utf8EncodeChar := by
  rw [bytes, ← String.utf8Encode_toList, List.utf8Encode]
  simp

theorem bytes_append (first second : String) :
    bytes (first ++ second) = bytes first ++ bytes second := by
  simp [bytes]

/-- The bytes of texts joined by a text. -/
theorem bytes_intercalate (separator : String) (texts : List String) :
    bytes (separator.intercalate texts) =
      (bytes separator).intercalate (texts.map bytes) := by
  induction texts with
  | nil => simp [bytes]
  | cons text texts ih =>
    by_cases last : texts = []
    · rw [last, String.intercalate_singleton, List.map_singleton, List.intercalate_singleton]
    · rw [String.intercalate_cons_of_ne_nil last, List.map_cons,
        List.intercalate_cons_of_ne_nil (by simpa using last), bytes_append, bytes_append, ih]

/-- Of the bytes of a character only a whole one is ASCII. -/
theorem toNat_of_mem_utf8EncodeChar {char : Char} {byte : UInt8}
    (member : byte ∈ String.utf8EncodeChar char) (ascii : byte < 128) :
    char.toNat = byte.toNat := by
  have low : byte.toNat < 128 := UInt8.lt_iff_toNat_lt.mp ascii
  unfold String.utf8EncodeChar at member
  dsimp only at member
  split at member
  · rw [List.mem_singleton.mp member, UInt8.toNat_ofNat', Char.toNat]
    omega
  · split at member
    · simp only [List.mem_cons, List.not_mem_nil, or_false] at member
      rcases member with rfl | rfl <;> rw [UInt8.toNat_ofNat'] at low <;> omega
    · split at member
      · simp only [List.mem_cons, List.not_mem_nil, or_false] at member
        rcases member with rfl | rfl | rfl <;> rw [UInt8.toNat_ofNat'] at low <;> omega
      · simp only [List.mem_cons, List.not_mem_nil, or_false] at member
        rcases member with rfl | rfl | rfl | rfl <;> rw [UInt8.toNat_ofNat'] at low <;> omega

/-- An ASCII byte of a text is one of its characters. -/
theorem mem_toList_of_mem_bytes {text : String} {byte : UInt8} (member : byte ∈ bytes text)
    (ascii : byte < 128) : Char.ofNat byte.toNat ∈ text.toList := by
  rw [bytes_eq_flatMap] at member
  obtain ⟨char, inside, encoded⟩ := List.mem_flatMap.mp member
  rw [← toNat_of_mem_utf8EncodeChar encoded ascii, Char.ofNat_toNat]
  exact inside

end BoardNet.Text
