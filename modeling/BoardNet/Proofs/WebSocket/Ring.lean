import BoardNet.WebSocket.Ring

namespace BoardNet.WebSocket.Ring

variable (ring : Ring)

theorem length_eq : ring.length = (ringSize - ring.head.val + ring.tail.val) % ringSize := rfl

/-- The cell at a distance from the front. -/
def place (distance : Nat) : Fin ringSize :=
  ⟨(ring.head.val + distance) % ringSize, Nat.mod_lt _ ring.head.pos⟩

theorem val_place (distance : Nat) :
    (ring.place distance).val = (ring.head.val + distance) % ringSize := rfl

theorem get_eq (distance : Nat) : ring.get distance = ring.cells.get (ring.place distance) := by
  have same : ring.head + Fin.ofNat ringSize distance = ring.place distance :=
    Fin.ext (by simp [val_place, Fin.val_add])
  rw [get, same]

/-- Behind the queued bytes is where the next one is written. -/
theorem place_length : ring.place ring.length = ring.tail := by
  apply Fin.ext
  rw [val_place, length_eq]
  have head := ring.head.isLt
  have tail := ring.tail.isLt
  unfold ringSize at *
  omega

theorem place_ne_tail {distance : Nat} (within : distance < ring.length) :
    ring.place distance ≠ ring.tail := by
  intro same
  have length := ring.length_lt
  have places := congrArg Fin.val (same.trans ring.place_length.symm)
  rw [val_place, val_place] at places
  unfold ringSize at *
  omega

theorem length_put (byte : UInt8) (space : 0 < ring.free) :
    (ring.put byte).length = ring.length + 1 := by
  have room : ring.length + 1 < ringSize := by
    unfold free at space
    omega
  rw [length_eq] at room ⊢
  have moved : (ring.put byte).tail.val = (ring.tail.val + 1) % ringSize := by
    simp [put, Fin.val_add]
  rw [moved, length_eq]
  have same : (ring.put byte).head = ring.head := rfl
  rw [same]
  unfold ringSize at *
  omega

theorem get_put_of_lt (byte : UInt8) {distance : Nat} (within : distance < ring.length) :
    (ring.put byte).get distance = ring.get distance := by
  rw [get_eq, get_eq]
  change (ring.cells.set ring.tail.val byte ring.tail.isLt)[(ring.place distance).val] = _
  rw [Vector.getElem_set_ne]
  · rfl
  · intro same
    exact ring.place_ne_tail within (Fin.ext same.symm)

theorem get_put_length (byte : UInt8) : (ring.put byte).get ring.length = byte := by
  have place : (ring.put byte).place ring.length = ring.tail := ring.place_length
  rw [get_eq, place]
  change (ring.cells.set ring.tail.val byte ring.tail.isLt)[ring.tail.val] = byte
  rw [Vector.getElem_set_self]

theorem toList_eq : ring.toList = (List.range ring.length).map ring.get := by
  rw [toList, peek, Nat.min_self]

/-- A byte is queued behind the others. -/
theorem toList_put (byte : UInt8) (space : 0 < ring.free) :
    (ring.put byte).toList = ring.toList ++ [byte] := by
  rw [toList_eq, ring.length_put byte space, List.range_succ, List.map_append, toList_eq]
  congr 1
  · apply List.map_congr_left
    intro distance member
    exact ring.get_put_of_lt byte (List.mem_range.mp member)
  · simp [get_put_length]

theorem free_put (byte : UInt8) (space : 0 < ring.free) :
    (ring.put byte).free = ring.free - 1 := by
  unfold free
  rw [ring.length_put byte space]
  omega

theorem toList_foldl_put (data : List UInt8) (fits : data.length ≤ ring.free) :
    (data.foldl put ring).toList = ring.toList ++ data := by
  induction data generalizing ring with
  | nil => simp
  | cons byte data ih =>
    rw [List.length_cons] at fits
    have space : 0 < ring.free := by omega
    have rest : data.length ≤ (ring.put byte).free := by
      rw [ring.free_put byte space]
      omega
    rw [List.foldl_cons, ih _ rest, ring.toList_put byte space, List.append_assoc]
    rfl

section PushAll

variable {parts : List (List UInt8)}

theorem pushAll_of_fits (fits : parts.flatten.length ≤ ring.free) :
    ring.pushAll parts = (true, parts.flatten.foldl put ring) :=
  if_neg (Nat.not_lt.mpr fits)

theorem pushAll_of_full (full : ring.free < parts.flatten.length) :
    ring.pushAll parts = (false, ring) :=
  if_pos full

/-- What is queued whole is queued behind the others. -/
theorem toList_pushAll {after : Ring} (pushed : ring.pushAll parts = (true, after)) :
    after.toList = ring.toList ++ parts.flatten := by
  rcases Nat.lt_or_ge ring.free parts.flatten.length with full | fits
  · cases (ring.pushAll_of_full full).symm.trans pushed
  · cases (ring.pushAll_of_fits fits).symm.trans pushed
    exact ring.toList_foldl_put parts.flatten fits

end PushAll

/-- A look at the front shows the first bytes. -/
theorem peek_eq (count : Nat) : ring.peek count = ring.toList.take count := by
  rw [toList_eq, ← List.map_take, List.take_range, peek]

theorem val_head_consume (count : Nat) :
    (ring.consume count).head.val = (ring.head.val + min count ring.length) % ringSize := by
  simp [consume, Fin.val_add]

theorem length_consume (count : Nat) : (ring.consume count).length = ring.length - count := by
  have bound := ring.length_lt
  have head := ring.head.isLt
  have tail := ring.tail.isLt
  have same : (ring.consume count).tail = ring.tail := rfl
  rw [length_eq, val_head_consume, same]
  rw [length_eq] at bound ⊢
  unfold ringSize at *
  omega

theorem place_consume (count distance : Nat) :
    (ring.consume count).place distance = ring.place (min count ring.length + distance) := by
  apply Fin.ext
  rw [val_place, val_place, val_head_consume]
  unfold ringSize at *
  omega

/-- Bytes are dropped from the front. -/
theorem toList_consume (count : Nat) : (ring.consume count).toList = ring.toList.drop count := by
  apply List.ext_getElem
  · simp [length_toList, length_consume]
  · intro distance within bound
    have most : min count ring.length = count := by
      simp only [length_toList, length_consume] at within
      omega
    simp only [toList_eq, List.getElem_map, List.getElem_range, List.getElem_drop]
    rw [get_eq, get_eq, place_consume, most]
    rfl

/-- The bytes that were seen at the front are those that are dropped. -/
theorem take_append_consume (count : Nat) :
    ring.toList.take count ++ (ring.consume count).toList = ring.toList := by
  rw [toList_consume, List.take_append_drop]

theorem isEmpty_iff : ring.isEmpty = true ↔ ring.toList = [] := by
  rw [isEmpty, decide_eq_true_iff, ← length_toList, List.length_eq_zero_iff]

theorem isEmpty_clear : ring.clear.isEmpty = true := by
  simp [isEmpty, length, clear]

@[simp] theorem toList_clear : ring.clear.toList = [] :=
  ring.clear.isEmpty_iff.mp ring.isEmpty_clear

end BoardNet.WebSocket.Ring
