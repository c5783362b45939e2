import Mathlib.Data.String.Basic

/-!
# The order of texts and of their bytes

Texts compare by their characters.  In UTF-8 a character that comes before another has bytes
that come before those of the other, and they differ before either ends, so texts compare by
their bytes alike.

**Results.**
* `Text.utf8EncodeChar_append_lt`: characters compare as their bytes do, whatever follows.
* `Text.bytes_lt`: texts compare as their bytes do.
-/

namespace TimelineStore

namespace Text

/-- The bytes of a text. -/
def bytes (text : String) : List UInt8 :=
  text.toUTF8.data.toList

theorem bytes_eq_flatMap
    (text : String) :
    bytes text = text.toList.flatMap String.utf8EncodeChar := by
  rw [bytes, String.toUTF8, ← String.utf8Encode_toList, List.utf8Encode, List.data_toByteArray]

/-- **A character that comes before another has bytes that do**, whatever follows. -/
theorem utf8EncodeChar_append_lt
    {c d : Char}
    (hless : c < d) (cs ds : List UInt8) :
    String.utf8EncodeChar c ++ cs < String.utf8EncodeChar d ++ ds := by
  have hvalue : c.val.toNat < d.val.toNat := hless
  have hbound : d.val.toNat < 0x110000 := by
    have hvalid := d.valid
    simp only [UInt32.isValidChar, Nat.isValidChar] at hvalid
    omega
  have hdigits : ∀ value : Nat,
      value / 4096 = value / 64 / 64 ∧ value / 262144 = value / 64 / 64 / 64 := by
    omega
  obtain ⟨hc, hc'⟩ := hdigits c.val.toNat
  obtain ⟨hd, hd'⟩ := hdigits d.val.toNat
  unfold String.utf8EncodeChar
  simp only [hc, hc', hd, hd']
  split_ifs
  all_goals
    simp only [List.cons_append, List.nil_append, List.cons_lt_cons_iff, UInt8.lt_iff_toNat_lt,
      ← UInt8.toNat_inj, UInt8.toNat_ofNat']
    simp (disch := omega) only [Nat.mod_eq_of_lt]
    omega

theorem flatMap_utf8EncodeChar_lt
    {cs ds : List Char}
    (hless : cs < ds) :
    cs.flatMap String.utf8EncodeChar < ds.flatMap String.utf8EncodeChar := by
  induction cs generalizing ds with
  | nil =>
      cases ds with
      | nil => exact absurd hless (List.not_lt_nil [])
      | cons d ds =>
          obtain ⟨byte, bytes, hbytes⟩ :=
            List.exists_cons_of_ne_nil (String.utf8EncodeChar_ne_nil (c := d))
          rw [List.flatMap_cons, hbytes]
          exact List.nil_lt_cons byte _
  | cons c cs ih =>
      cases ds with
      | nil => exact absurd hless (List.not_lt_nil _)
      | cons d ds =>
          rw [List.flatMap_cons, List.flatMap_cons]
          rcases List.cons_lt_cons_iff.1 hless with hfirst | ⟨rfl, hrest⟩
          · exact utf8EncodeChar_append_lt hfirst _ _
          · exact List.append_left_lt (ih hrest)

/-- **Texts compare as their bytes do.** -/
theorem bytes_lt
    {text other : String}
    (hless : text < other) :
    bytes text < bytes other := by
  rw [bytes_eq_flatMap, bytes_eq_flatMap]
  exact flatMap_utf8EncodeChar_lt (String.lt_iff_toList_lt.1 hless)

end Text

end TimelineStore
