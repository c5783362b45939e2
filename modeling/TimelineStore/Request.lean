import TimelineStore.Failure
import TimelineStore.Identifier
import TimelineStore.Time

/-!
# Read requests

A request names one window and the tracks to read over it.  The type admits no
other request than one that can be read: its window covers some time, it
selects at least one track, and no track twice.  A `Draft` gathers a request
step by step.
-/

namespace TimelineStore

/-- The distinct members of a list, each where it occurs first. -/
def firstOccurrences {α : Type} [DecidableEq α] : List α → List α
  | [] => []
  | a :: rest => a :: (firstOccurrences rest).filter (· ≠ a)

section FirstOccurrences

variable {α : Type} [DecidableEq α]

@[simp] theorem mem_firstOccurrences {a : α} {as : List α} :
    a ∈ firstOccurrences as ↔ a ∈ as := by
  induction as with
  | nil => simp [firstOccurrences]
  | cons b bs ih =>
      by_cases h : a = b <;> simp [firstOccurrences, ih, h]

theorem nodup_firstOccurrences (as : List α) : (firstOccurrences as).Nodup := by
  induction as with
  | nil => simp [firstOccurrences]
  | cons b bs ih =>
      simp only [firstOccurrences, List.nodup_cons]
      exact ⟨by simp, ih.filter _⟩

theorem firstOccurrences_of_nodup {as : List α} (hnodup : as.Nodup) :
    firstOccurrences as = as := by
  induction as with
  | nil => rfl
  | cons b bs ih =>
      obtain ⟨hb, hbs⟩ := List.nodup_cons.1 hnodup
      have hothers : bs.filter (· ≠ b) = bs := by
        refine List.filter_eq_self.2 fun a ha => ?_
        exact decide_eq_true fun hsame => hb (hsame ▸ ha)
      rw [firstOccurrences, ih hbs, hothers]

end FirstOccurrences

/-- A window and the tracks to read over it, in order. -/
structure Request where
  window : Window
  tracks : List TrackId
  covers : window.isEmpty = false
  selects : tracks ≠ []
  distinct : tracks.Nodup
deriving DecidableEq

namespace Request

/-- Why there is no request. -/
inductive Flaw where
  | noWindow
  | emptyWindow (window : Window)
  | noTracks
deriving DecidableEq

/-- The flaw as a failed operation reports it. -/
def Flaw.failure : Flaw → Failure
  | .noWindow => .invalidParameter "read window was never configured"
  | .emptyWindow window => .invalidParameter s!"read window {window} is empty"
  | .noTracks => .invalidParameter "read request selects no tracks"

/-- The request for a window and tracks.  A track named again is dropped. -/
def make (window : Window) (tracks : List TrackId) : Except Flaw Request :=
  if covers : window.isEmpty = false then
    if selects : firstOccurrences tracks ≠ [] then
      .ok ⟨window, firstOccurrences tracks, covers, selects, nodup_firstOccurrences tracks⟩
    else
      .error .noTracks
  else
    .error (.emptyWindow window)

/-- A request in the making. -/
structure Draft where
  window : Option Window
  tracks : List TrackId
deriving DecidableEq

namespace Draft

/-- Nothing has been said yet. -/
def empty : Draft :=
  ⟨none, []⟩

/-- The draft says nothing. -/
def isEmpty (draft : Draft) : Bool :=
  draft.window.isNone && draft.tracks.isEmpty

/-- The draft with its window set, in place of an earlier one. -/
def «over» (draft : Draft) (window : Window) : Draft :=
  { draft with window := some window }

/-- The draft with one more track. -/
def add (draft : Draft) (track : TrackId) : Draft :=
  { draft with tracks := draft.tracks ++ [track] }

/-- The draft with more tracks. -/
def addAll (draft : Draft) (tracks : List TrackId) : Draft :=
  { draft with tracks := draft.tracks ++ tracks }

/-- The request that the draft describes. -/
def finish (draft : Draft) : Except Flaw Request :=
  match draft.window with
  | none => .error .noWindow
  | some window => make window draft.tracks

end Draft

end Request

end TimelineStore
