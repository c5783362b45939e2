import TimelineStore.Event

/-!
# Packed events

A word of 64 bits has room for the row of an event in its low 60 bits and for the operation in
the high four.  Not every word is an event packed: some numbers of four bits are those of no
operation.  The others and the events go together one by one.

**Results.**
* `EventId.unpack?_eq_some_iff`: a word unpacks to the one event that it is packed from.
* `EventId.isSome_unpack?_iff`: the words that unpack.
* `EventId.pack_ofRow`: the word as it is put together from bits.
-/

namespace TimelineStore

theorem Operation.ofNumber?_eq_some_iff
    {number : Nat} {operation : Operation} :
    ofNumber? number = some operation ↔ number = operation.number := by
  constructor
  · intro hfound
    obtain ⟨hless, hat⟩ := List.getElem?_eq_some_iff.1 hfound
    match number, hless with
    | 0, _ | 1, _ | 2, _ | 3, _ | 4, _ => cases hat; rfl
  · rintro rfl
    exact operation.ofNumber?_number

theorem DetailKind.ofNumber?_eq_some_iff
    {number : Nat} {kind : DetailKind} :
    ofNumber? number = some kind ↔ number = kind.number := by
  constructor
  · intro hfound
    obtain ⟨hless, hat⟩ := List.getElem?_eq_some_iff.1 hfound
    match number, hless with
    | 0, _ | 1, _ | 2, _ => cases hat; rfl
  · rintro rfl
    cases kind <;> rfl

theorem DetailKind.number_inj
    {kind other : DetailKind}
    (hsame : kind.number = other.number) :
    kind = other :=
  Option.some.inj ((ofNumber?_eq_some_iff.2 rfl).symm.trans (ofNumber?_eq_some_iff.2 hsame))

/-- The number of an operation has four bits. -/
theorem Operation.number_lt
    (operation : Operation) :
    operation.number < 16 := by
  cases operation <;> decide

namespace EventId

variable {word : UInt64} {event : EventId}

theorem toNat_pack
    (event : EventId) :
    event.pack.toNat = event.operation.number * rowLimit + event.row.val := by
  have hnumber := event.operation.number_lt
  have hrow := event.row.isLt
  rw [pack, UInt64.toNat_ofNat']
  refine Nat.mod_eq_of_lt ?_
  simp only [rowLimit] at hrow ⊢
  omega

theorem toNat_pack_div
    (event : EventId) :
    event.pack.toNat / rowLimit = event.operation.number := by
  rw [toNat_pack, Nat.mul_comm, Nat.mul_add_div (by decide), Nat.div_eq_of_lt event.row.isLt,
    Nat.add_zero]

theorem toNat_pack_mod
    (event : EventId) :
    event.pack.toNat % rowLimit = event.row.val := by
  rw [toNat_pack, Nat.mul_comm, Nat.mul_add_mod, Nat.mod_eq_of_lt event.row.isLt]

/-- **A word unpacks to an event just if it is that event packed.** -/
theorem unpack?_eq_some_iff :
    unpack? word = some event ↔ event.pack = word := by
  constructor
  · intro hunpack
    obtain ⟨operation, hoperation, rfl⟩ := Option.map_eq_some_iff.1 hunpack
    have hhigh : word.toNat / rowLimit = operation.number :=
      Operation.ofNumber?_eq_some_iff.1 hoperation
    apply UInt64.toNat_inj.1
    calc (ofRow word operation).pack.toNat
        = operation.number * rowLimit + word.toNat % rowLimit := toNat_pack _
      _ = word.toNat / rowLimit * rowLimit + word.toNat % rowLimit := by rw [hhigh]
      _ = word.toNat := Nat.div_add_mod' _ _
  · rintro rfl
    have hrow : ofRow event.pack event.operation = event :=
      congrArg (EventId.mk · event.operation) (Fin.ext event.toNat_pack_mod)
    rw [unpack?, toNat_pack_div, Operation.ofNumber?_number, Option.map_some, hrow]

theorem unpack?_pack
    (event : EventId) :
    unpack? event.pack = some event :=
  unpack?_eq_some_iff.2 rfl

/-- The high four bits of a word. -/
theorem toNat_shiftRight
    (word : UInt64) :
    (word >>> 60).toNat = word.toNat / rowLimit := by
  rw [UInt64.toNat_shiftRight, Nat.shiftRight_eq_div_pow]
  rfl

/-- **A word unpacks just if its high four bits are the number of an operation.** -/
theorem isSome_unpack?_iff :
    (unpack? word).isSome = true ↔
      ∃ operation : Operation, (word >>> 60).toNat = operation.number := by
  rw [toNat_shiftRight, unpack?, Option.isSome_map, Option.isSome_iff_exists]
  exact exists_congr fun operation => Operation.ofNumber?_eq_some_iff

/-- The operation is moved to the high bits, and the row is put in below, cut to its bits. -/
theorem pack_ofRow
    (row : UInt64) (operation : Operation) :
    (ofRow row operation).pack =
      UInt64.ofNat operation.number <<< 60 ||| row &&& 0x0FFFFFFFFFFFFFFF := by
  have hnumber := operation.number_lt
  have hlow : row.toNat % rowLimit < 2 ^ 60 := Nat.mod_lt _ (by decide)
  have hand : row.toNat &&& 0x0FFFFFFFFFFFFFFF = row.toNat % rowLimit :=
    Nat.and_two_pow_sub_one_eq_mod row.toNat 60
  have hor := Nat.two_pow_add_eq_or_of_lt hlow operation.number
  have hhigh : (UInt64.ofNat operation.number <<< 60).toNat = 2 ^ 60 * operation.number := by
    rw [UInt64.toNat_shiftLeft, UInt64.toNat_ofNat', Nat.shiftLeft_eq, Nat.mul_comm]
    simp only [UInt64.reduceToNat, Nat.reduceMod, Nat.reducePow]
    omega
  apply UInt64.toNat_inj.1
  calc (ofRow row operation).pack.toNat
      = operation.number * rowLimit + row.toNat % rowLimit := toNat_pack _
    _ = 2 ^ 60 * operation.number ||| row.toNat % rowLimit := by rw [← hor, Nat.mul_comm]
    _ = (UInt64.ofNat operation.number <<< 60 ||| row &&& 0x0FFFFFFFFFFFFFFF).toNat := by
        rw [UInt64.toNat_or, UInt64.toNat_and, hhigh, ← hand]
        rfl

end EventId

end TimelineStore
