import TimelineStore.Keyed

/-!
# Arenas

An arena hands out numbers in order and never hands one out again, also when the
value that had it is gone.

Numbers have no bound here, but callers are handed them in words of 32 bits.  The
words are as good as the numbers as long as an arena `Fits`: after 2³² numbers they
come round, and one word stands for several numbers.
-/

namespace TimelineStore

/-- Values by number; every number from `next` on is still to be handed out. -/
structure Arena (α : Type) where
  next : Nat
  slots : Keyed Nat α
  issued : ∀ number ∈ slots.entries.map Prod.fst, number < next

namespace Arena

variable {α : Type}

/-- No more numbers have been handed out than there are words. -/
def Fits (arena : Arena α) : Prop :=
  arena.next ≤ UInt32.size

/-- No number has been handed out. -/
def empty : Arena α :=
  ⟨0, .empty, by simp [Keyed.empty]⟩

/-- The value with a number. -/
def get? (arena : Arena α) (number : Nat) : Option α :=
  arena.slots.get? number

/-- The arena with one more value, made for the number it gets. -/
def add (arena : Arena α) (make : Nat → α) : Arena α where
  next := arena.next + 1
  slots := arena.slots.insert arena.next (make arena.next)
  issued := by
    intro number member
    simp only [Keyed.insert, List.map_cons, List.mem_cons] at member
    rcases member with rfl | member
    · exact Nat.lt_succ_self _
    · obtain ⟨entry, inside, rfl⟩ := List.mem_map.1 member
      have old := arena.issued entry.1
        (List.mem_map_of_mem (List.mem_filter.1 inside).1)
      exact Nat.lt_succ_of_lt old

/-- The arena without the value of a number. -/
def erase (arena : Arena α) (number : Nat) : Arena α where
  next := arena.next
  slots := arena.slots.erase number
  issued := by
    intro other member
    obtain ⟨entry, inside, rfl⟩ := List.mem_map.1 member
    exact arena.issued entry.1 (List.mem_map_of_mem (List.mem_filter.1 inside).1)

/-- The arena with the value of one number changed. -/
def modify (arena : Arena α) (number : Nat) (change : α → α) : Arena α where
  next := arena.next
  slots := arena.slots.modify number change
  issued := by
    intro other member
    obtain ⟨entry, inside, rfl⟩ := List.mem_map.1 member
    obtain ⟨old, found, rfl⟩ := List.mem_map.1 inside
    have bound := arena.issued old.1 (List.mem_map_of_mem found)
    split <;> exact bound

end Arena

end TimelineStore
