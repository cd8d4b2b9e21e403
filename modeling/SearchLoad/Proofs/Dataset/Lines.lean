import SearchLoad.Dataset.Source
import SearchLoad.Proofs.Text.Utf8

namespace SearchLoad.Dataset

open Text.Utf8

def carriageReturn : UInt8 := 13

/-- A text is stretches that feeds end, and a tail that none does. -/
structure IsLined {α : Type} (feed : α) (whole : List α) (ended : List (List α)) (tail : List α) :
    Prop where
  whole : whole = (ended.map (· ++ [feed])).flatten ++ tail
  ended_free : ∀ line ∈ ended, feed ∉ line
  tail_free : feed ∉ tail

theorem intercalate_concat {α : Type} (x : α) (ended : List (List α)) (tail : List α) :
    [x].intercalate (ended ++ [tail]) = (ended.map (· ++ [x])).flatten ++ tail := by
  induction ended with
  | nil => simp
  | cons line ended ih =>
    rw [List.cons_append, List.intercalate_cons_of_ne_nil (by simp), ih]
    simp

section IsLined

variable {α : Type} [DecidableEq α]

theorem exists_isLined (feed : α) (s : List α) : ∃ ended tail, IsLined feed s ended tail := by
  induction s with
  | nil => exact ⟨[], [], rfl, by simp, by simp⟩
  | cons b s ih =>
    obtain ⟨ended, tail, rfl, lines, last⟩ := ih
    by_cases found : b = feed
    · exact ⟨[] :: ended, tail, by simp [found], by simpa using lines, last⟩
    · have free : ∀ line : List α, feed ∉ line → feed ∉ b :: line := by
        intro line h
        simpa [Ne.symm found] using h
      cases ended with
      | nil => exact ⟨[], b :: tail, by simp, by simp, free tail last⟩
      | cons line ended =>
        obtain ⟨first, lines⟩ := List.forall_mem_cons.mp lines
        refine ⟨(b :: line) :: ended, tail, by simp, ?_, last⟩
        exact List.forall_mem_cons.mpr ⟨free line first, lines⟩

theorem IsLined.splitOn_eq {feed : α} {s : List α} {ended : List (List α)} {tail : List α}
    (h : IsLined feed s ended tail) : s.splitOn feed = ended ++ [tail] := by
  rw [h.whole, ← intercalate_concat]
  refine List.splitOn_intercalate feed ?_ (by simp)
  intro line member
  rcases List.mem_append.mp member with member | member
  · exact h.ended_free line member
  · exact List.mem_singleton.mp member ▸ h.tail_free

end IsLined

/-- The lines are the stretches with their ends, and the tail unless it is empty. -/
theorem IsLined.rawLines_eq {bytes : List UInt8} {ended : List (List UInt8)} {tail : List UInt8}
    (h : IsLined lineFeed bytes ended tail) :
    rawLines bytes = ended.map (· ++ [lineFeed]) ++ if tail.isEmpty then [] else [tail] := by
  rw [rawLines, h.splitOn_eq]
  simp only [List.getLastD_concat, List.dropLast_concat]

theorem lineFeed_mem_encode {s : List Char} (h : lineFeed ∈ encode s) : '\n' ∈ s := by
  obtain ⟨c, member, inside⟩ := List.mem_flatMap.mp h
  have code : c.toNat = 10 := toNat_of_mem_encodeChar (by decide) inside
  have feed : c = '\n' := by rw [← Char.ofNat_toNat c, code]
  exact feed ▸ member

theorem encode_feed : encode ['\n'] = [lineFeed] := by decide

theorem encode_return_feed : encode ['\r', '\n'] = [carriageReturn, lineFeed] := by decide

/-- Characters and the bytes they are written as have the same lines. -/
theorem IsLined.encode {s : List Char} {ended : List (List Char)} {tail : List Char}
    (h : IsLined '\n' s ended tail) :
    IsLined lineFeed (encode s) (ended.map Text.Utf8.encode) (Text.Utf8.encode tail) := by
  refine ⟨?_, ?_, fun member => h.tail_free (lineFeed_mem_encode member)⟩
  · have each : ∀ line ∈ ended, Text.Utf8.encode (line ++ ['\n']) =
        Text.Utf8.encode line ++ [lineFeed] := fun line _ => by rw [encode_append, encode_feed]
    rw [h.whole, encode_append, encode_flatten, List.map_map, List.map_map]
    exact congrArg (·.flatten ++ _) (List.map_congr_left each)
  · intro line member
    obtain ⟨piece, there, rfl⟩ := List.mem_map.mp member
    exact fun inside => h.ended_free piece there (lineFeed_mem_encode inside)

theorem ne_nil_of_mem_rawLines {bytes raw : List UInt8} (h : raw ∈ rawLines bytes) : raw ≠ [] := by
  obtain ⟨ended, tail, lined⟩ := exists_isLined lineFeed bytes
  rw [lined.rawLines_eq] at h
  rcases List.mem_append.mp h with h | h
  · obtain ⟨line, -, rfl⟩ := List.mem_map.mp h
    simp
  · split at h
    · contradiction
    · rename_i full
      obtain rfl := List.mem_singleton.mp h
      simpa using full

/-- A stretch without the carriage return that belongs to the end of its line. -/
def dropReturn (line : List Char) : List Char :=
  if line.getLast? = some '\r' then line.dropLast else line

theorem stripEnd_concat (line : List Char) : stripEnd (line ++ ['\n']) = dropReturn line := by
  rcases List.eq_nil_or_concat line with rfl | ⟨line, c, rfl⟩
  · rfl
  · by_cases h : c = '\r'
    · simp [stripEnd, dropReturn, h]
    · simp [stripEnd, dropReturn, h]

theorem stripEnd_of_not_mem {line : List Char} (h : '\n' ∉ line) : stripEnd line = line := by
  rcases List.eq_nil_or_concat line with rfl | ⟨line, c, rfl⟩
  · rfl
  · have other : c ≠ '\n' := by
      rintro rfl
      simp at h
    simp [stripEnd, other]

theorem dropReturn_eq_nil_iff {line : List Char} :
    dropReturn line = [] ↔ line = [] ∨ line = ['\r'] := by
  rcases List.eq_nil_or_concat line with rfl | ⟨line, c, rfl⟩
  · simp [dropReturn]
  · by_cases h : c = '\r'
    · simp [dropReturn, h]
    · simp [dropReturn, h, List.append_eq_singleton_iff]

theorem stripEnd_eq_nil_iff {line : List Char} :
    stripEnd line = [] ↔ line = [] ∨ line = ['\n'] ∨ line = ['\r', '\n'] := by
  rcases List.eq_nil_or_concat line with rfl | ⟨line, c, rfl⟩
  · simp [stripEnd]
  have both : ['\r', '\n'] = ['\r'] ++ ['\n'] := rfl
  rw [List.concat_eq_append, both, List.append_singleton_inj, List.append_eq_singleton_iff]
  by_cases feed : c = '\n'
  · subst feed
    rw [stripEnd_concat, dropReturn_eq_nil_iff]
    simp
  · simp [stripEnd, feed]

theorem lineText_encode (s : List Char) :
    lineText (encode s) = .ok (String.ofList (stripEnd s)) := by
  rw [lineText, decode_encode]
  rfl

/-- A line that is nothing but its end. -/
def isEmptyLine (raw : List UInt8) : Bool := raw = [lineFeed] || raw = [carriageReturn, lineFeed]

theorem lineText_of_isEmptyLine {raw : List UInt8} (h : isEmptyLine raw = true) :
    lineText raw = .ok "" := by
  rcases Bool.or_eq_true_iff.mp h with h | h
  · rw [of_decide_eq_true h, ← encode_feed, lineText_encode]
    rfl
  · rw [of_decide_eq_true h, ← encode_return_feed, lineText_encode]
    rfl

/-- The text of a line is empty exactly if the line is nothing but its end. -/
theorem lineText_eq_empty_iff {raw : List UInt8} (full : raw ≠ []) :
    lineText raw = .ok "" ↔ isEmptyLine raw = true := by
  refine ⟨?_, lineText_of_isEmptyLine⟩
  intro h
  unfold lineText at h
  cases read : decode raw with
  | error fault => simp [read, Except.map] at h
  | ok s =>
    rw [read] at h
    have stripped : stripEnd s = [] := String.ofList_inj.mp (Except.ok.inj h)
    rw [decode_eq_ok_iff] at read
    rcases stripEnd_eq_nil_iff.mp stripped with rfl | rfl | rfl
    · exact absurd read full
    · simp [isEmptyLine, read, encode_feed]
    · simp [isEmptyLine, read, encode_return_feed]

end SearchLoad.Dataset
