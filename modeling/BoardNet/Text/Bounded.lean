/-!
Text in a buffer of fixed size. There are two ways to add to such a buffer. `push` adds one piece
whole or not at all. `appendFitting` adds the pieces of a formatted text in order and stops at the
first that does not fit, so the buffer holds a run of whole pieces.
-/

namespace BoardNet.Text

/-- `piece` fits behind `text` in a buffer of `capacity` bytes. -/
def Fits (capacity : Nat) (text piece : String) : Prop :=
  text.utf8ByteSize + piece.utf8ByteSize ≤ capacity

instance (capacity : Nat) (text piece : String) : Decidable (Fits capacity text piece) :=
  inferInstanceAs (Decidable (_ ≤ _))

/-- Adds `piece`, or leaves the text alone if it does not fit. -/
def push (capacity : Nat) (text piece : String) : String :=
  if Fits capacity text piece then text ++ piece else text

/-- Adds pieces in order up to the first that does not fit. -/
def appendFitting (capacity : Nat) : (text : String) → (pieces : List String) → String
  | text, [] => text
  | text, piece :: pieces =>
    if Fits capacity text piece then appendFitting capacity (text ++ piece) pieces else text

def fitting (capacity : Nat) (pieces : List String) : String := appendFitting capacity "" pieces

/-- `piece` alone, if a buffer of `capacity` bytes can hold it. -/
def bounded? (capacity : Nat) (piece : String) : Option String :=
  if piece.utf8ByteSize ≤ capacity then some piece else none

/-- A push keeps a text within the buffer. -/
theorem size_push {capacity : Nat} {text : String} (piece : String)
    (within : text.utf8ByteSize ≤ capacity) :
    (push capacity text piece).utf8ByteSize ≤ capacity := by
  unfold push
  split
  · next fits => simpa [Fits] using fits
  · exact within

/-- Adding pieces keeps a text within the buffer. -/
theorem size_appendFitting {capacity : Nat} (text : String) (pieces : List String)
    (within : text.utf8ByteSize ≤ capacity) :
    (appendFitting capacity text pieces).utf8ByteSize ≤ capacity := by
  induction pieces generalizing text with
  | nil => exact within
  | cons piece pieces next =>
    unfold appendFitting
    split
    · next fits => exact next _ (by simpa [Fits] using fits)
    · exact within

/-- A text only grows when pieces are added. -/
theorem size_le_foldl (text : String) (pieces : List String) :
    text.utf8ByteSize ≤ (pieces.foldl (· ++ ·) text).utf8ByteSize := by
  induction pieces generalizing text with
  | nil => exact Nat.le_refl _
  | cons piece pieces next =>
    refine Nat.le_trans ?_ (next (text ++ piece))
    rw [String.utf8ByteSize_append]
    exact Nat.le_add_right _ _

/-- Pieces that fit all together are all added. -/
theorem appendFitting_of_fits {capacity : Nat} {text : String} {pieces : List String}
    (fits : (pieces.foldl (· ++ ·) text).utf8ByteSize ≤ capacity) :
    appendFitting capacity text pieces = pieces.foldl (· ++ ·) text := by
  induction pieces generalizing text with
  | nil => rfl
  | cons piece pieces next =>
    have here : Fits capacity text piece := by
      have whole := Nat.le_trans (size_le_foldl (text ++ piece) pieces) fits
      rwa [String.utf8ByteSize_append] at whole
    rw [appendFitting, if_pos here]
    exact next fits

/-- Pieces that all fit are joined to the text. -/
theorem appendFitting_eq_append {capacity : Nat} {text : String} {pieces : List String}
    (fits : text.utf8ByteSize + (String.join pieces).utf8ByteSize ≤ capacity) :
    appendFitting capacity text pieces = text ++ String.join pieces := by
  have joined : pieces.foldl (· ++ ·) text = text ++ String.join pieces := by
    clear fits
    induction pieces generalizing text with
    | nil => exact String.append_empty.symm
    | cons piece pieces ih => rw [List.foldl_cons, ih, String.join_cons, String.append_assoc]
  rw [← String.utf8ByteSize_append, ← joined] at fits
  rw [appendFitting_of_fits fits, joined]

/-- So are the pieces of several formatted texts. -/
theorem foldl_appendFitting {capacity : Nat} {text : String} {parts : List (List String)}
    (fits : text.utf8ByteSize + (String.join parts.flatten).utf8ByteSize ≤ capacity) :
    parts.foldl (appendFitting capacity) text = text ++ String.join parts.flatten := by
  induction parts generalizing text with
  | nil => exact String.append_empty.symm
  | cons part parts ih =>
    rw [List.flatten_cons, String.join_append, String.utf8ByteSize_append] at fits
    have here : text.utf8ByteSize + (String.join part).utf8ByteSize ≤ capacity := by omega
    rw [List.foldl_cons, appendFitting_eq_append here, ih, List.flatten_cons, String.join_append,
      String.append_assoc]
    rw [String.utf8ByteSize_append]
    omega

/-- A piece that fits is added. -/
theorem push_of_fits {capacity : Nat} {text piece : String}
    (fits : (text ++ piece).utf8ByteSize ≤ capacity) :
    push capacity text piece = text ++ piece := by
  rw [String.utf8ByteSize_append] at fits
  exact if_pos fits

end BoardNet.Text
