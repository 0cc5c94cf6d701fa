import SiteAtlas.Channel.Frame

/-!
# The lines of a byte sequence

A peer that reads a stream whole sees its lines; the channel cuts one line at a time off what it
has read so far. Both see the same lines.
-/
namespace SiteAtlas.Channel

open Utf8 (Bytes)

/-- The lines that are ended, without their ends; bytes behind the last end are in none. -/
def segments : Bytes → List Bytes
  | [] => []
  | b :: rest =>
    if b = lineEnd then [] :: segments rest
    else
      match segments rest with
      | [] => []
      | line :: lines => (b :: line) :: lines

def joinLines (lines : List Bytes) : Bytes := lines.flatMap (· ++ [lineEnd])

@[simp] theorem joinLines_append (a b : List Bytes) :
    joinLines (a ++ b) = joinLines a ++ joinLines b :=
  List.flatMap_append

theorem joinLines_cons (line : Bytes) (lines : List Bytes) :
    joinLines (line :: lines) = line ++ lineEnd :: joinLines lines := by
  rw [joinLines, List.flatMap_cons, List.append_assoc, List.singleton_append]
  rfl

theorem joinLines_singleton (line : Bytes) : joinLines [line] = line ++ [lineEnd] :=
  joinLines_cons line []

theorem joinLines_eq_nil {lines : List Bytes} (h : joinLines lines = []) : lines = [] := by
  cases lines with
  | nil => rfl
  | cons line lines =>
    rw [joinLines_cons] at h
    exact absurd h (List.append_ne_nil_of_right_ne_nil _ (List.cons_ne_nil _ _))

/-- A line with its end in front is the first segment. -/
theorem segments_append {line : Bytes} (h : lineEnd ∉ line) (rest : Bytes) :
    segments (line ++ lineEnd :: rest) = line :: segments rest := by
  induction line with
  | nil => rw [List.nil_append, segments, if_pos rfl]
  | cons b line ih =>
    have hb : b ≠ lineEnd := fun e => h (e ▸ List.mem_cons_self)
    have hline : lineEnd ∉ line := fun hm => h (List.mem_cons_of_mem b hm)
    rw [List.cons_append, segments, if_neg hb, ih hline]

/-- Lines with their ends in front are the first segments, in order. -/
theorem segments_joinLines {lines : List Bytes} (h : ∀ line ∈ lines, lineEnd ∉ line)
    (rest : Bytes) : segments (joinLines lines ++ rest) = lines ++ segments rest := by
  induction lines with
  | nil => rfl
  | cons line lines ih =>
    have hlines : ∀ l ∈ lines, lineEnd ∉ l := fun l hl => h l (List.mem_cons_of_mem line hl)
    rw [joinLines_cons, List.append_assoc, List.cons_append,
      segments_append (h line List.mem_cons_self), ih hlines, List.cons_append]

/-- What starts with whole lines has them as its first segments. -/
theorem take_segments {lines : List Bytes} (h : ∀ line ∈ lines, lineEnd ∉ line) {bytes : Bytes}
    (hp : joinLines lines <+: bytes) : (segments bytes).take lines.length = lines := by
  obtain ⟨rest, rfl⟩ := hp
  rw [segments_joinLines h, List.take_left]

theorem dropWhile_lineEnd (bytes : Bytes) (b : UInt8) (rest : Bytes)
    (h : bytes.dropWhile (· != lineEnd) = b :: rest) : b = lineEnd := by
  have hb := List.head?_dropWhile_not (· != lineEnd) bytes
  rw [h] at hb
  simpa using hb

/-- The line that is cut off has no end inside, and what follows its end is kept. -/
theorem cutLine?_eq_some {bytes line rest : Bytes} (h : cutLine? bytes = some (line, rest)) :
    bytes = line ++ lineEnd :: rest ∧ lineEnd ∉ line := by
  rw [cutLine?] at h
  cases hdrop : bytes.dropWhile (· != lineEnd) with
  | nil =>
    rw [hdrop] at h
    cases h
  | cons b tail =>
    rw [hdrop] at h
    cases h
    constructor
    · have hb : b = lineEnd := dropWhile_lineEnd bytes b rest hdrop
      rw [← hb, ← hdrop, hb, List.takeWhile_append_dropWhile]
    · intro hm
      have hall := List.all_eq_true.1 (List.all_takeWhile (p := (· != lineEnd)) (l := bytes))
      exact absurd (hall lineEnd hm) (by decide)

theorem cutLine?_append {line : Bytes} (h : lineEnd ∉ line) (rest : Bytes) :
    cutLine? (line ++ lineEnd :: rest) = some (line, rest) := by
  have hline : ∀ b ∈ line, (b != lineEnd) = true := by
    intro b hb
    simp only [bne_iff_ne]
    rintro rfl
    exact h hb
  rw [cutLine?, List.dropWhile_append_of_pos hline, List.takeWhile_append_of_pos hline]
  simp

theorem cutLine?_eq_none {bytes : Bytes} (h : cutLine? bytes = none) : segments bytes = [] := by
  induction bytes with
  | nil => rfl
  | cons b bytes ih =>
    rw [cutLine?] at h
    by_cases hb : b = lineEnd
    · subst hb
      cases h
    · rw [List.dropWhile_cons_of_pos (by simpa using hb)] at h
      have hbytes : cutLine? bytes = none := by
        rw [cutLine?]
        cases hdrop : bytes.dropWhile (· != lineEnd) with
        | nil => rfl
        | cons c rest =>
          rw [hdrop] at h
          cases h
      rw [segments, if_neg hb, ih hbytes]

theorem segments_of_cutLine? {bytes line rest : Bytes} (h : cutLine? bytes = some (line, rest))
    (more : Bytes) : segments (bytes ++ more) = line :: segments (rest ++ more) := by
  obtain ⟨hbytes, hline⟩ := cutLine?_eq_some h
  rw [hbytes, List.append_assoc, List.cons_append, segments_append hline]

end SiteAtlas.Channel
