import Mathlib.Data.List.Basic

/-!
# Names made of segments

A name such as a topic or a channel is its segments with a separator between them.

* `segments`, `joined` : taking a name apart and putting it together;
* `segments_joined`, `joined_segments` : **each undoes the other**, on segments without the separator;
* `segments_eq_iff` : **the one name with given segments**, the fact that readers of names use.
-/

namespace TelemetryCloud.Segments

/-- `text.split(sep)`. -/
def segments (sep : Char) (text : String) : List String :=
  (text.toList.splitOn sep).map String.ofList

def joined (sep : Char) (parts : List String) : String :=
  String.intercalate (String.singleton sep) parts

variable {sep : Char} {text : String} {parts : List String}

theorem toList_joined : (joined sep parts).toList = [sep].intercalate (parts.map String.toList) := by
  rw [joined, String.toList_intercalate, String.toList_singleton]

theorem map_toList_segments : (segments sep text).map String.toList = text.toList.splitOn sep := by
  rw [segments, List.map_map]
  exact (List.map_congr_left fun part _ => String.toList_ofList).trans (List.map_id _)

theorem joined_segments (sep : Char) (text : String) : joined sep (segments sep text) = text := by
  apply String.toList_inj.mp
  rw [toList_joined, map_toList_segments]
  exact List.intercalate_splitOn sep

theorem segments_joined (hne : parts ≠ []) (hparts : ∀ part ∈ parts, sep ∉ part.toList) :
    segments sep (joined sep parts) = parts := by
  have hsplit : (joined sep parts).toList.splitOn sep = parts.map String.toList := by
    rw [toList_joined]
    refine List.splitOn_intercalate sep (fun chars hchars => ?_) (List.map_eq_nil_iff.not.mpr hne)
    obtain ⟨part, hpart, rfl⟩ := List.mem_map.mp hchars
    exact hparts part hpart
  rw [segments, hsplit, List.map_map]
  exact (List.map_congr_left fun part _ => String.ofList_toList).trans (List.map_id _)

/-- No part of a split list holds the separator. -/
theorem not_mem_of_mem_splitOn {chars part : List Char} (hpart : part ∈ chars.splitOn sep) :
    sep ∉ part := by
  induction chars generalizing part with
  | nil =>
    rw [List.splitOn_nil] at hpart
    rw [List.mem_singleton.mp hpart]
    exact List.not_mem_nil
  | cons c chars ih =>
    obtain ⟨first, rest, hsplit⟩ := List.exists_cons_of_ne_nil (List.splitOn_ne_nil sep chars)
    rw [List.splitOn_cons_eq_if_modifyHead, hsplit] at hpart
    rw [hsplit] at ih
    split at hpart
    · -- the separator itself: an empty part before the others
      rcases List.mem_cons.mp hpart with rfl | hpart
      · exact List.not_mem_nil
      · exact ih hpart
    · next hc =>
      rcases List.mem_cons.mp hpart with rfl | hpart
      · intro hmem
        rcases List.mem_cons.mp hmem with rfl | hmem
        · exact hc (beq_self_eq_true sep)
        · exact ih List.mem_cons_self hmem
      · exact ih (List.mem_cons_of_mem first hpart)

theorem not_mem_of_mem_segments {part : String} (hpart : part ∈ segments sep text) :
    sep ∉ part.toList := by
  obtain ⟨chars, hchars, rfl⟩ := List.mem_map.mp hpart
  rw [String.toList_ofList]
  exact not_mem_of_mem_splitOn hchars

theorem segments_ne_nil (sep : Char) (text : String) : segments sep text ≠ [] :=
  List.map_eq_nil_iff.not.mpr (List.splitOn_ne_nil sep text.toList)

/-- **One name has given segments**, and it has them when none of them holds the separator. -/
theorem segments_eq_iff :
    segments sep text = parts ↔
      parts ≠ [] ∧ (∀ part ∈ parts, sep ∉ part.toList) ∧ text = joined sep parts := by
  constructor
  · rintro rfl
    exact ⟨segments_ne_nil sep text, fun part => not_mem_of_mem_segments,
      (joined_segments sep text).symm⟩
  · rintro ⟨hne, hparts, rfl⟩
    exact segments_joined hne hparts

end TelemetryCloud.Segments
