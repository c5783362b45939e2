import Mathlib.Algebra.Group.Int.Defs
import Mathlib.Data.List.TakeWhile
import TimelineStore.Json.Number
import TimelineStore.Json.Printer

/-!
# Numbers that read back

A number ends where the text goes on with something that no number has, and what comes after
that has no part in it.  A whole number that is as large as one that is read can be is read
back from its own text.

**Results.**
* `JsonNumber.read?_append`: a number is the same with more text after it.
* `JsonNumber.readsBack_whole`: whole numbers of 64 bits read back.
* `JsonNumber.fits_of_read?`: a whole number that is read has 64 bits.
-/

namespace TimelineStore

namespace JsonNumber

/-- The text does not go on with anything that a number may go on with. -/
def Stops (rest : List Char) : Prop :=
  ∀ c ∈ rest.head?, c.isDigit = false ∧ c ≠ '.' ∧ c ≠ 'e' ∧ c ≠ 'E'

section Append

variable {rest : List Char} {negative : Bool}

theorem splitDigits_append
    (hstops : Stops rest) (cs : List Char) :
    splitDigits (cs ++ rest) = ((splitDigits cs).1, (splitDigits cs).2 ++ rest) := by
  induction cs with
  | nil =>
      cases rest with
      | nil => rfl
      | cons c rest => simp [splitDigits, (hstops c rfl).1]
  | cons c cs ih =>
      cases hdigit : c.isDigit with
      | true => simpa [splitDigits, hdigit] using ih
      | false => simp [splitDigits, hdigit]

theorem splitWhole?_eq_some_iff
    {cs digits left : List Char} :
    splitWhole? cs = some (digits, left) ↔
      splitDigits cs = (digits, left) ∧ digits ≠ [] ∧ ∀ c more, digits ≠ '0' :: c :: more := by
  unfold splitWhole?
  split
  · rename_i hsplit
    rw [hsplit]
    refine ⟨nofun, ?_⟩
    rintro ⟨⟨⟩, hsome, -⟩
    exact absurd rfl hsome
  · rename_i hsplit
    rw [hsplit]
    refine ⟨nofun, ?_⟩
    rintro ⟨⟨⟩, -, hzero⟩
    exact absurd rfl (hzero _ _)
  · rename_i hnil hzero
    rw [Option.some.injEq]
    refine ⟨fun hsplit => ⟨hsplit, ?_, ?_⟩, And.left⟩
    · rintro rfl
      exact hnil _ hsplit
    · rintro c more rfl
      exact hzero _ _ _ hsplit

theorem splitWhole?_append
    {cs digits left : List Char}
    (hstops : Stops rest)
    (hsplit : splitWhole? cs = some (digits, left)) :
    splitWhole? (cs ++ rest) = some (digits, left ++ rest) := by
  obtain ⟨hdigits, hwhole⟩ := splitWhole?_eq_some_iff.1 hsplit
  refine splitWhole?_eq_some_iff.2 ⟨?_, hwhole⟩
  rw [splitDigits_append hstops, hdigits]

/-- The digits of an exponent, after its sign. -/
def readMagnitude? (negative : Bool) (cs : List Char) : Option (Int × List Char) :=
  match splitDigits cs with
  | ([], _) => none
  | (digits, rest) =>
    let value : Nat := digits.foldl (fun n c => n * 10 + digitValue c) 0
    some (if negative then -value else value, rest)

theorem readExponent?_of_unsigned
    {c : Char} (cs : List Char)
    (hminus : c ≠ '-') (hplus : c ≠ '+') :
    readExponent? (c :: cs) = readMagnitude? false (c :: cs) := by
  rcases hsplit : splitDigits (c :: cs) with ⟨_ | ⟨digit, digits⟩, more⟩ <;>
    simp [readExponent?, readMagnitude?, hminus, hplus, hsplit]

theorem readMagnitude?_append
    {cs left : List Char} {exponent : Int}
    (hstops : Stops rest)
    (hread : readMagnitude? negative cs = some (exponent, left)) :
    readMagnitude? negative (cs ++ rest) = some (exponent, left ++ rest) := by
  unfold readMagnitude? at hread ⊢
  rw [splitDigits_append hstops]
  rcases hsplit : splitDigits cs with ⟨_ | ⟨digit, digits⟩, more⟩
  · simp [hsplit] at hread
  · rw [hsplit] at hread
    cases hread
    rfl

theorem readExponent?_append
    {cs left : List Char} {exponent : Int}
    (hstops : Stops rest)
    (hread : readExponent? cs = some (exponent, left)) :
    readExponent? (cs ++ rest) = some (exponent, left ++ rest) := by
  rcases cs with _ | ⟨c, cs⟩
  · cases hread
  · by_cases hminus : c = '-'
    · subst hminus
      exact readMagnitude?_append hstops hread
    · by_cases hplus : c = '+'
      · subst hplus
        exact readMagnitude?_append hstops hread
      · rw [readExponent?_of_unsigned cs hminus hplus] at hread
        rw [List.cons_append, readExponent?_of_unsigned _ hminus hplus]
        exact readMagnitude?_append hstops hread

theorem readScaled_of_plain
    {cs : List Char} {significand : Nat} {exponent : Int}
    (hplain : ∀ c ∈ cs.head?, c ≠ 'e' ∧ c ≠ 'E') :
    readScaled negative significand exponent cs =
      (realOf negative significand exponent).map (·, cs) := by
  unfold readScaled
  split
  · exact absurd rfl (hplain 'e' rfl).1
  · exact absurd rfl (hplain 'E' rfl).2
  · rfl

theorem readScaled_append
    {cs left : List Char} {significand : Nat} {exponent : Int} {n : JsonNumber}
    (hstops : Stops rest)
    (hread : readScaled negative significand exponent cs = some (n, left)) :
    readScaled negative significand exponent (cs ++ rest) = some (n, left ++ rest) := by
  by_cases hmark : ∃ mark more, cs = mark :: more ∧ (mark = 'e' ∨ mark = 'E')
  · obtain ⟨mark, more, rfl, hmark⟩ := hmark
    have hscaled : ∀ more, readScaled negative significand exponent (mark :: more) =
        (readExponent? more).bind fun power =>
          (realOf negative significand (exponent + power.1)).map (·, power.2) := by
      intro more
      rcases hmark with rfl | rfl <;> simp only [readScaled] <;>
        cases readExponent? more <;> rfl
    rw [hscaled] at hread
    rw [List.cons_append, hscaled]
    obtain ⟨⟨power, after⟩, hpower, hscaled⟩ := Option.bind_eq_some_iff.1 hread
    obtain ⟨real, hreal, heq⟩ := Option.map_eq_some_iff.1 hscaled
    cases heq
    rw [readExponent?_append hstops hpower, Option.bind_some]
    dsimp only at hreal ⊢
    rw [hreal]
    rfl
  · have hplain : ∀ c ∈ (cs ++ rest).head?, c ≠ 'e' ∧ c ≠ 'E' := by
      rcases cs with _ | ⟨c, cs⟩
      · exact fun c hc => (hstops c hc).2.2
      · rintro _ ⟨⟩
        exact ⟨fun he => hmark ⟨_, _, rfl, .inl he⟩, fun he => hmark ⟨_, _, rfl, .inr he⟩⟩
    have hfront : ∀ c ∈ cs.head?, c ≠ 'e' ∧ c ≠ 'E' := by
      rcases cs with _ | ⟨c, cs⟩
      · nofun
      · exact hplain
    rw [readScaled_of_plain hfront] at hread
    rw [readScaled_of_plain hplain]
    obtain ⟨real, hreal, heq⟩ := Option.map_eq_some_iff.1 hread
    cases heq
    rw [hreal]
    rfl

theorem readUnsigned?_append
    {cs left : List Char} {n : JsonNumber}
    (hstops : Stops rest)
    (hread : readUnsigned? negative cs = some (n, left)) :
    readUnsigned? negative (cs ++ rest) = some (n, left ++ rest) := by
  unfold readUnsigned? at hread ⊢
  cases hsplit : splitWhole? cs with
  | none => simp [hsplit] at hread
  | some split =>
      obtain ⟨digits, more⟩ := split
      rw [hsplit] at hread
      rw [splitWhole?_append hstops hsplit]
      dsimp only at hread ⊢
      split at hread
      · rename_i more
        simp only [List.cons_append, splitDigits_append hstops]
        rcases hfraction : splitDigits more with ⟨_ | ⟨digit, digits⟩, more⟩
        · simp [hfraction] at hread
        · rw [hfraction] at hread
          exact readScaled_append hstops hread
      · exact readScaled_append hstops hread
      · exact readScaled_append hstops hread
      · rename_i hdot hlower hupper
        obtain ⟨whole, hwhole, heq⟩ := Option.map_eq_some_iff.1 hread
        cases heq
        -- what follows the digits is no fraction and no exponent, here or after the text
        have hplain : ∀ c ∈ (left ++ rest).head?, c ≠ '.' ∧ c ≠ 'e' ∧ c ≠ 'E' := by
          rcases left with _ | ⟨c, left⟩
          · exact fun c hc => (hstops c hc).2
          · rintro _ ⟨⟩
            refine ⟨?_, ?_, ?_⟩
            · rintro rfl
              exact hdot _ rfl
            · rintro rfl
              exact hlower _ rfl
            · rintro rfl
              exact hupper _ rfl
        split
        · rename_i hmore
          exact absurd rfl (hplain '.' (by simp [hmore])).1
        · rename_i hmore
          exact absurd rfl (hplain 'e' (by simp [hmore])).2.1
        · rename_i hmore
          exact absurd rfl (hplain 'E' (by simp [hmore])).2.2
        · rw [hwhole]
          rfl

theorem read?_of_unsigned
    {c : Char} {cs : List Char}
    (hminus : c ≠ '-') :
    read? (c :: cs) = readUnsigned? false (c :: cs) := by
  unfold read?
  split
  · rename_i hlist
    exact absurd (List.cons.inj hlist).1 hminus
  · rfl

/-- **A number is the same with more text after it** that no number goes on with. -/
theorem read?_append
    {cs left : List Char} {n : JsonNumber}
    (hstops : Stops rest)
    (hread : read? cs = some (n, left)) :
    read? (cs ++ rest) = some (n, left ++ rest) := by
  rcases cs with _ | ⟨c, cs⟩
  · simp [read?, readUnsigned?, splitWhole?, splitDigits] at hread
  · by_cases hminus : c = '-'
    · subst hminus
      exact readUnsigned?_append hstops hread
    · rw [read?_of_unsigned hminus] at hread
      rw [List.cons_append, read?_of_unsigned hminus]
      exact readUnsigned?_append hstops hread

end Append

/-- The number is read back from its own text. -/
def ReadsBack (n : JsonNumber) : Prop :=
  read? n.write = some (n, [])

/-- A whole number of 64 bits, signed below zero and unsigned above. -/
def Fits (value : Int) : Prop :=
  -(2 ^ 63) ≤ value ∧ value < 2 ^ 64

section Whole

theorem digitValue_digitChar :
    ∀ digit < 10, digitValue (Nat.digitChar digit) = digit := by
  decide

/-- Digits of a number of 64 bits are all taken. -/
theorem gather_toDigits
    {n : Nat}
    (hfits : n < UInt64.size) :
    gather 0 (Nat.toDigits 10 n) = ⟨n, (Nat.toDigits 10 n).length, 0⟩ := by
  induction n using Nat.strongRecOn with
  | _ n ih =>
      by_cases hdigit : n < 10
      · rw [Nat.toDigits_of_lt_base hdigit]
        simp [gather, Gathered.take, digitValue_digitChar n hdigit, hfits]
      · have hless : n / 10 < n := by omega
        have hlast : n / 10 * 10 + n % 10 = n := by omega
        rw [Nat.toDigits_of_base_le (by omega) (by omega), gather, List.foldl_append, ← gather,
          ih (n / 10) hless (Nat.lt_trans hless hfits)]
        simp [Gathered.take, digitValue_digitChar (n % 10) (by omega), hlast, hfits]

/-- No number but zero has a zero in front. -/
theorem head?_toDigits_ne
    {n : Nat}
    (hsome : 0 < n) :
    (Nat.toDigits 10 n).head? ≠ some '0' := by
  induction n using Nat.strongRecOn with
  | _ n ih =>
      by_cases hdigit : n < 10
      · rw [Nat.toDigits_of_lt_base hdigit]
        have hnone : ∀ digit < 10, 0 < digit → Nat.digitChar digit ≠ '0' := by decide
        simpa using hnone n hdigit hsome
      · rw [Nat.toDigits_of_base_le (by omega) (by omega),
          List.head?_append, Option.or_of_isSome (by simp)]
        exact ih (n / 10) (by omega) (by omega)

theorem splitDigits_toDigits
    (n : Nat) :
    splitDigits (Nat.toDigits 10 n) = (Nat.toDigits 10 n, []) := by
  have hdigits : ∀ c ∈ Nat.toDigits 10 n, c.isDigit = true := fun c hc =>
    Nat.isDigit_of_mem_toDigits (by omega) (by omega) hc
  rw [splitDigits, List.takeWhile_eq_self_iff.2 hdigits, List.dropWhile_eq_nil_iff.2 hdigits]

theorem splitWhole?_toDigits
    (n : Nat) :
    splitWhole? (Nat.toDigits 10 n) = some (Nat.toDigits 10 n, []) := by
  refine splitWhole?_eq_some_iff.2 ⟨splitDigits_toDigits n, Nat.toDigits_ne_nil, ?_⟩
  intro c more hzero
  rcases Nat.eq_zero_or_pos n with rfl | hsome
  · cases hzero
  · exact head?_toDigits_ne hsome (by rw [hzero]; rfl)

theorem readUnsigned?_toDigits
    {n : Nat}
    (hfits : n < UInt64.size) (negative : Bool) :
    readUnsigned? negative (Nat.toDigits 10 n) =
      (wholeOf negative ⟨n, (Nat.toDigits 10 n).length, 0⟩).map (·, []) := by
  simp only [readUnsigned?, splitWhole?_toDigits, gather_toDigits hfits]

/-- **Whole numbers of 64 bits read back.** -/
theorem readsBack_whole
    {value : Int}
    (hfits : Fits value) :
    (whole value).ReadsBack := by
  obtain ⟨hlow, hhigh⟩ := hfits
  have hsize : UInt64.size = 2 ^ 64 := rfl
  rw [ReadsBack, write, Int.toString_eq_repr, Int.repr_eq_if]
  split
  · have hread := readUnsigned?_toDigits (show value.toNat < UInt64.size by omega) false
    rw [Nat.toList_repr]
    cases hdigits : Nat.toDigits 10 value.toNat with
    | nil => exact absurd hdigits Nat.toDigits_ne_nil
    | cons c cs =>
        have hdigit : c.isDigit = true :=
          Nat.isDigit_of_mem_toDigits (by omega) (by omega) (hdigits ▸ List.mem_cons_self)
        have hminus : c ≠ '-' := by
          rintro rfl
          cases hdigit
        rw [read?_of_unsigned hminus, ← hdigits, hread]
        simp only [wholeOf, ne_eq, not_true_eq_false, if_false, Bool.not_false, if_true,
          Option.map_some, Int.toNat_of_nonneg ‹0 ≤ value›]
  · have hread := readUnsigned?_toDigits (show (-value).toNat < UInt64.size by omega) true
    have hbound : ¬ ((-value).toNat = 0 ∨ UInt64.size / 2 < (-value).toNat) := by omega
    have hvalue : -((-value).toNat : Int) = value := by omega
    rw [String.toList_append, Nat.toList_repr]
    refine hread.trans ?_
    simp only [wholeOf, ne_eq, not_true_eq_false, if_false, Bool.not_true, Bool.false_eq_true,
      hbound, hvalue, Option.map_some]

theorem real_of_realOf
    {negative : Bool} {significand : Nat} {exponent : Int} {n : JsonNumber}
    (hreal : realOf negative significand exponent = some n) :
    ∃ x, n = .real x := by
  obtain ⟨x, -, rfl⟩ := Option.map_eq_some_iff.1 hreal
  exact ⟨_, rfl⟩

theorem real_of_readScaled
    {negative : Bool} {significand : Nat} {exponent : Int} {n : JsonNumber}
    {cs left : List Char}
    (hread : readScaled negative significand exponent cs = some (n, left)) :
    ∃ x, n = .real x := by
  have hpart : ∀ {exponent : Int} {cs : List Char},
      (realOf negative significand exponent).map (·, cs) = some (n, left) → ∃ x, n = .real x := by
    intro exponent cs hmap
    obtain ⟨real, hreal, heq⟩ := Option.map_eq_some_iff.1 hmap
    cases heq
    exact real_of_realOf hreal
  unfold readScaled at hread
  split at hread
  · split at hread
    · cases hread
    · exact hpart hread
  · split at hread
    · cases hread
    · exact hpart hread
  · exact hpart hread

/-- A significand has 64 bits. -/
theorem significand_foldl_take_lt
    (digits : List Char) {gathered : Gathered}
    (hfits : gathered.significand < UInt64.size) :
    (digits.foldl Gathered.take gathered).significand < UInt64.size := by
  induction digits generalizing gathered with
  | nil => exact hfits
  | cons digit digits ih =>
      refine ih ?_
      unfold Gathered.take
      dsimp only
      split
      · exact ‹_ ∧ _›.2
      · exact hfits

/-- A whole number made of digits has 64 bits. -/
theorem fits_of_wholeOf
    {negative : Bool} {gathered : Gathered} {value : Int}
    (hbound : gathered.significand < UInt64.size)
    (hwhole : wholeOf negative gathered = some (whole value)) :
    Fits value := by
  have hsize : UInt64.size = 2 ^ 64 := rfl
  have hreal : ∀ {exponent : Int},
      realOf negative gathered.significand exponent ≠ some (whole value) := by
    intro exponent hreal
    obtain ⟨x, hx⟩ := real_of_realOf hreal
    cases hx
  unfold wholeOf at hwhole
  split at hwhole
  · exact absurd hwhole hreal
  · split at hwhole
    · cases hwhole
      constructor <;> omega
    · split at hwhole
      · exact absurd hwhole hreal
      · cases hwhole
        constructor <;> omega

theorem fits_of_readUnsigned?
    {negative : Bool} {cs left : List Char} {value : Int}
    (hread : readUnsigned? negative cs = some (whole value, left)) :
    Fits value := by
  have hscaled : ∀ {significand : Nat} {exponent : Int} {cs : List Char},
      readScaled negative significand exponent cs ≠ some (whole value, left) := by
    intro significand exponent cs hscaled
    obtain ⟨x, hx⟩ := real_of_readScaled hscaled
    cases hx
  unfold readUnsigned? at hread
  split at hread
  · cases hread
  · dsimp only at hread
    split at hread
    · split at hread
      · cases hread
      · exact absurd hread hscaled
    · exact absurd hread hscaled
    · exact absurd hread hscaled
    · obtain ⟨n, hwhole, heq⟩ := Option.map_eq_some_iff.1 hread
      cases heq
      exact fits_of_wholeOf (significand_foldl_take_lt _ (by decide)) hwhole

/-- **A whole number that is read has 64 bits.** -/
theorem fits_of_read?
    {cs left : List Char} {value : Int}
    (hread : read? cs = some (whole value, left)) :
    Fits value := by
  unfold read? at hread
  split at hread
  · exact fits_of_readUnsigned? hread
  · exact fits_of_readUnsigned? hread

/-- A number starts with a digit or a minus sign, and so with nothing else. -/
theorem exists_cons_of_read?
    {cs left : List Char} {n : JsonNumber}
    (hread : read? cs = some (n, left)) :
    ∃ c more, cs = c :: more ∧ ∀ other, other.isDigit = false → other ≠ '-' → c ≠ other := by
  rcases cs with _ | ⟨c, cs⟩
  · simp [read?, readUnsigned?, splitWhole?, splitDigits] at hread
  · refine ⟨c, cs, rfl, ?_⟩
    rintro other hdigit hminus rfl
    rw [read?_of_unsigned hminus, readUnsigned?] at hread
    split at hread
    · cases hread
    · rename_i digits rest hsplit
      obtain ⟨hdigits, hsome, -⟩ := splitWhole?_eq_some_iff.1 hsplit
      have htaken : (splitDigits (c :: cs)).1 = digits := by rw [hdigits]
      exact hsome (htaken.symm.trans (by simp [splitDigits, hdigit]))

end Whole

end JsonNumber

end TimelineStore
