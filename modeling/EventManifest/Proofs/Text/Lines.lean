import EventManifest.Text.Lines
import Mathlib.Data.List.Basic

/-!
Reading a text back as lines. A string that was written as one line can hold line feeds itself, and
then stands as several lines.
-/

namespace EventManifest.Text

/-- The lines of a text, without their ends. What stands behind the last line feed is a line too,
even if it is empty. -/
def lines (text : String) : List (List Char) :=
  text.toList.splitOn '\n'

theorem lines_eq_singleton {text : String} (hText : '\n' ∉ text.toList) :
    lines text = [text.toList] :=
  List.splitOn_eq_singleton hText

/-- The lines of a text are those of the strings it was written from. A string with a line feed
gives several. -/
theorem lines_ofLines (written : List String) :
    lines (ofLines written) = written.flatMap lines ++ [[]] := by
  induction written with
  | nil => rfl
  | cons line rest ih =>
    have hText : (ofLines (line :: rest)).toList =
        line.toList ++ '\n' :: (ofLines rest).toList := by
      simp [ofLines, String.join_cons]
    rw [lines, hText, List.splitOn_append_cons_self, List.flatMap_cons, List.append_assoc, ← ih]
    rfl

/-- Strings without line feeds are read back one by one, and an empty line after them. The latter
comes from the line feed behind the last string. -/
theorem lines_ofLines_of_newline_not_mem {written : List String}
    (h : ∀ line ∈ written, '\n' ∉ line.toList) :
    lines (ofLines written) = (written ++ [""]).map String.toList := by
  have hSingle : written.flatMap lines = written.map String.toList := by
    rw [List.map_eq_flatMap]
    exact List.flatMap_congr fun line hLine => lines_eq_singleton (h line hLine)
  rw [lines_ofLines, hSingle, List.map_append]
  rfl

/-- What is added to a text, without line feeds, belongs to its last line. All lines before it stay
as they are. -/
theorem exists_splitOn_append (cs : List Char) :
    ∃ init last, ∀ added, '\n' ∉ added →
      (cs ++ added).splitOn '\n' = init ++ [last ++ added] := by
  induction cs with
  | nil => exact ⟨[], [], fun added hAdded => List.splitOn_eq_singleton hAdded⟩
  | cons c rest ih =>
    obtain ⟨init, last, hSplit⟩ := ih
    by_cases hc : c = '\n'
    · refine ⟨[] :: init, last, fun added hAdded => ?_⟩
      simp [List.splitOn_cons_eq_if_modifyHead, hc, hSplit added hAdded]
    · cases init with
      | nil =>
        refine ⟨[], c :: last, fun added hAdded => ?_⟩
        simp [List.splitOn_cons_eq_if_modifyHead, hc, hSplit added hAdded]
      | cons first others =>
        refine ⟨(c :: first) :: others, last, fun added hAdded => ?_⟩
        simp [List.splitOn_cons_eq_if_modifyHead, hc, hSplit added hAdded]

end EventManifest.Text
