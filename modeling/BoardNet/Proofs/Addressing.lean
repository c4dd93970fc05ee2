import BoardNet.Addressing

/-!
Stored addressing, written and read. What is written is read back, whatever the addressing. What is
read need not be what would be written: a reader takes any flag but zero for a set one, so a record
can be spelled in 255 ways with the flag set, and writing gives the plain one. Main statement
`record_codec`.
-/

namespace BoardNet

/-- Four bytes are the octets of an address, and the others stand behind them. -/
theorem Ipv4.exists_octets {data : List UInt8} {count : Nat} (sized : data.length = count + 4) :
    ∃ (ip : Ipv4) (rest : List UInt8), rest.length = count ∧ data = ip.octets ++ rest := by
  match data, sized with
  | a :: b :: c :: d :: rest, sized =>
    exact ⟨⟨a, b, c, d⟩, rest, Nat.add_right_cancel (m := 4) sized, rfl⟩

namespace Addressing

/-- Where the addresses stand in a record. -/
def places : List (Nat × (Addressing → Ipv4)) := [(2, ip), (6, subnet), (10, gateway), (14, dns)]

/-- The bytes of a record with its flag written as one or zero. -/
def withPlainFlag (data : List UInt8) : List UInt8 :=
  data.modify 1 fun flag => if flag = 0 then 0 else 1

section Layout

variable (magic flag : UInt8) (ip subnet gateway dns : Ipv4)

/-- Eighteen bytes, field by field. -/
def layout : List UInt8 :=
  magic :: flag :: (ip.octets ++ subnet.octets ++ gateway.octets ++ dns.octets)

theorem ofRecord_layout : ofRecord (layout magic flag ip subnet gateway dns) =
    if magic = recordMagic then .ok ⟨flag != 0, ip, subnet, gateway, dns⟩
    else .error .badMagic := rfl

theorem withPlainFlag_layout : withPlainFlag (layout magic flag ip subnet gateway dns) =
    layout magic (if flag = 0 then 0 else 1) ip subnet gateway dns := rfl

theorem toRecord_flagged : toRecord ⟨flag != 0, ip, subnet, gateway, dns⟩ =
    layout recordMagic (if flag = 0 then 0 else 1) ip subnet gateway dns := by
  by_cases zero : flag = 0 <;> simp [toRecord, layout, zero]

end Layout

variable {data : List UInt8} {addressing : Addressing}

/-- Bytes of the right length have every field, and nothing behind them. -/
theorem exists_layout (sized : data.length = recordLength) :
    ∃ magic flag ip subnet gateway dns, data = layout magic flag ip subnet gateway dns := by
  obtain ⟨magic, data, rfl⟩ := List.exists_cons_of_length_eq_add_one sized
  obtain ⟨flag, data, rfl⟩ := List.exists_cons_of_length_eq_add_one (Nat.succ.inj sized)
  obtain ⟨ip, data, twelve, rfl⟩ := Ipv4.exists_octets (Nat.succ.inj (Nat.succ.inj sized))
  obtain ⟨subnet, data, eight, rfl⟩ := Ipv4.exists_octets twelve
  obtain ⟨gateway, data, four, rfl⟩ := Ipv4.exists_octets eight
  obtain ⟨dns, data, none_, rfl⟩ := Ipv4.exists_octets four
  obtain rfl := List.eq_nil_of_length_eq_zero none_
  refine ⟨magic, flag, ip, subnet, gateway, dns, ?_⟩
  simp only [layout, List.append_assoc, List.append_nil]

/-- What reading can come to: a wrong length, else a wrong first byte, else an addressing that would
be written with a plain flag. -/
theorem ofRecord_cases (data : List UInt8) :
    (data.length ≠ recordLength ∧ ofRecord data = .error .badLength) ∨
    (data.length = recordLength ∧ data.head? ≠ some recordMagic ∧
      ofRecord data = .error .badMagic) ∨
    (data.length = recordLength ∧ data.head? = some recordMagic ∧
      ∃ addressing, ofRecord data = .ok addressing ∧ addressing.toRecord = withPlainFlag data) := by
  by_cases sized : data.length = recordLength
  · right
    obtain ⟨magic, flag, ip, subnet, gateway, dns, rfl⟩ := exists_layout sized
    by_cases marked : magic = recordMagic
    · right
      refine ⟨rfl, congrArg some marked, ⟨flag != 0, ip, subnet, gateway, dns⟩, ?_, ?_⟩
      · rw [ofRecord_layout, if_pos marked]
      · rw [toRecord_flagged, withPlainFlag_layout, marked]
    · left
      refine ⟨rfl, mt Option.some.inj marked, ?_⟩
      rw [ofRecord_layout, if_neg marked]
  · left
    refine ⟨sized, ?_⟩
    unfold ofRecord
    split
    · exact absurd rfl sized
    · rfl

theorem ofRecord_toRecord (addressing : Addressing) :
    ofRecord addressing.toRecord = .ok addressing := by
  obtain ⟨dhcp, ip, subnet, gateway, dns⟩ := addressing
  cases dhcp <;> rfl

/-- Each address of a written record stands in its place. -/
theorem octets_of_place (addressing : Addressing) :
    ∀ place ∈ places, (addressing.toRecord.drop place.1).take 4 = (place.2 addressing).octets := by
  simp [places, toRecord, Ipv4.octets]

theorem load_of_ok (read : ofRecord data = .ok addressing) : load data = pure addressing := by
  rw [load, read]

theorem value_load_of_error {error : RecordError} (refused : ofRecord data = .error error) :
    (load data).value = factory := by
  rw [load, refused]
  rfl

/-- Whatever addressing is written is read back. Bytes are refused for their length first, then for
their first byte, and for nothing else; what they are read as is written as they are, the flag
apart. What is refused leaves the factory's addressing. -/
theorem record_codec :
    (∀ addressing : Addressing,
      ofRecord addressing.toRecord = .ok addressing ∧
      load addressing.toRecord = pure addressing ∧
      ∀ place ∈ places, (addressing.toRecord.drop place.1).take 4 = (place.2 addressing).octets) ∧
    ∀ data : List UInt8,
      (ofRecord data = .error .badLength ↔ data.length ≠ recordLength) ∧
      (ofRecord data = .error .badMagic ↔
        data.length = recordLength ∧ data.head? ≠ some recordMagic) ∧
      ((∃ addressing, ofRecord data = .ok addressing) ↔
        data.length = recordLength ∧ data.head? = some recordMagic) ∧
      (∀ addressing, ofRecord data = .ok addressing →
        addressing.toRecord = withPlainFlag data ∧ load data = pure addressing) ∧
      ∀ error, ofRecord data = .error error → (load data).value = factory := by
  constructor
  · intro addressing
    have read := ofRecord_toRecord addressing
    exact ⟨read, load_of_ok read, octets_of_place addressing⟩
  · intro data
    rcases ofRecord_cases data with ⟨other, refused⟩ | ⟨sized, other, refused⟩ |
      ⟨sized, marked, addressing, read, plain⟩
    · simp [refused, other, value_load_of_error refused]
    · simp [refused, sized, other, value_load_of_error refused]
    · simp [read, sized, marked, plain, load_of_ok read]

/-- A record whose flag is seven is read with the flag set, and would be written with a one. Erased
memory is as long as a record and is refused for its first byte. -/
theorem record_codec_seven :
    let data : List UInt8 := [0xA5, 7, 10, 0, 0, 7, 255, 255, 0, 0, 10, 0, 0, 1, 1, 1, 1, 1]
    let addressing : Addressing :=
      ⟨true, ⟨10, 0, 0, 7⟩, ⟨255, 255, 0, 0⟩, ⟨10, 0, 0, 1⟩, ⟨1, 1, 1, 1⟩⟩
    let erased : List UInt8 := List.replicate recordLength 0xFF
    (6, subnet) ∈ places ∧ (addressing.toRecord.drop 6).take 4 = [255, 255, 0, 0] ∧
      ofRecord data = .ok addressing ∧ addressing.toRecord = withPlainFlag data ∧
      withPlainFlag data ≠ data ∧ ofRecord erased = .error .badMagic ∧
      (load erased).value = factory := by
  intro data addressing erased
  obtain ⟨written, stored⟩ := record_codec
  have placed : (6, subnet) ∈ places := by simp [places]
  have read : ofRecord data = .ok addressing := rfl
  have refused : ofRecord erased = .error .badMagic := rfl
  obtain ⟨-, -, -, plain, -⟩ := stored data
  obtain ⟨-, -, -, -, fallback⟩ := stored erased
  exact ⟨placed, (written addressing).2.2 _ placed, read, (plain addressing read).1, by decide,
    refused, fallback _ refused⟩

end Addressing

end BoardNet
