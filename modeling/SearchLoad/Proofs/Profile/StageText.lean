import SearchLoad.Profile.Stage
import SearchLoad.Proofs.Span.Sums
import SearchLoad.Proofs.Text.Entries

namespace SearchLoad

open Number SearchLoad.Span

namespace Stage

variable {s front back : List Char} {stage : Stage}

theorem splitColon_append {front : List Char} (plain : ∀ c ∈ front, c ≠ ':') (back : List Char) :
    splitColon (front ++ ':' :: back) = some (front, back) := by
  have free : ':' ∉ front := fun member => plain ':' member rfl
  rw [splitColon, Text.dropWhile_append_mark free, Text.takeWhile_append_mark free]

theorem splitColon_eq_some_iff :
    splitColon s = some (front, back) ↔ s = front ++ ':' :: back ∧ ∀ c ∈ front, c ≠ ':' := by
  constructor
  · intro split
    have parts : s.takeWhile (· != ':') ++ s.dropWhile (· != ':') = s :=
      List.takeWhile_append_dropWhile
    have stop := List.head?_dropWhile_not (· != ':') s
    unfold splitColon at split
    dsimp only at split
    split at split
    · contradiction
    · rename_i c rest found
      obtain ⟨rfl, rfl⟩ := Prod.mk.inj (Option.some.inj split)
      rw [found] at parts stop
      obtain rfl : c = ':' := by simpa using stop
      exact ⟨parts.symm, fun d member => by simpa using List.mem_takeWhile_imp member⟩
  · rintro ⟨rfl, plain⟩
    exact splitColon_append plain back

theorem readDuration_eq_ok_iff {d : Span} :
    readDuration s = .ok d ↔ Span.read (Text.trim s) = .ok d := by
  unfold readDuration
  split <;> simp_all

theorem readTarget_eq_ok_iff {n : Nat} :
    readTarget s = .ok n ↔ IsDecimal n (Text.trim s) ∧ n ≤ maxUnsigned := by
  rw [readTarget, mapError_eq_ok_iff, readUnsigned_eq_ok_iff]

/-- A stage is read from its duration and its target, on the two sides of the first colon. -/
theorem read_eq_ok_iff : read s = .ok stage ↔ ∃ front back, Text.trim s = front ++ ':' :: back ∧
    (∀ c ∈ front, c ≠ ':') ∧ Span.read (Text.trim front) = .ok stage.duration ∧
    IsDecimal stage.target (Text.trim back) ∧ stage.target ≤ maxUnsigned := by
  constructor
  · intro found
    unfold read at found
    split at found
    · contradiction
    · rename_i front back split
      obtain ⟨whole, plain⟩ := splitColon_eq_some_iff.mp split
      simp only [bind_eq_ok_iff, readDuration_eq_ok_iff, readTarget_eq_ok_iff] at found
      obtain ⟨duration, timed, target, aimed, last⟩ := found
      obtain rfl := Except.ok.inj last
      exact ⟨front, back, whole, plain, timed, aimed⟩
  · rintro ⟨front, back, whole, plain, timed, aimed⟩
    rw [read, whole, splitColon_append plain back]
    exact bind_eq_ok_iff.mpr ⟨_, readDuration_eq_ok_iff.mpr timed,
      bind_eq_ok_iff.mpr ⟨_, readTarget_eq_ok_iff.mpr aimed, rfl⟩⟩

end Stage

theorem Span.ItemsSpelling.ne_colon {is : List Item} {s : List Char} (h : ItemsSpelling is s) :
    ∀ c ∈ s, c ≠ ':' := by
  rintro c member rfl
  rcases h.mem member with loose | point | letter <;> contradiction

/-- What stands for a stage: items, a colon and a target, with blanks around each. -/
def Stage.Spelling (is : List Item) (n : Nat) (s : List Char) : Prop :=
  ∃ lead spelled gap digits trail, Blanks lead ∧ ItemsSpelling is spelled ∧ Blanks gap ∧
    IsDecimal n digits ∧ Blanks trail ∧
    s = lead ++ (spelled ++ ':' :: (gap ++ (digits ++ trail)))

/-- Blanks around items and a target are not read. -/
theorem Stage.trim_spelling {is : List Item} {n : Nat} {lead spelled gap digits trail : List Char}
    (free : Blanks lead) (items : ItemsSpelling is spelled) (decimal : IsDecimal n digits)
    (free' : Blanks trail) :
    Text.trim (lead ++ (spelled ++ ':' :: (gap ++ (digits ++ trail)))) =
      spelled ++ ':' :: (gap ++ digits) := by
  have apart : spelled ++ ':' :: (gap ++ (digits ++ trail)) =
      spelled ++ ':' :: (gap ++ digits) ++ trail := by simp
  rw [Text.trim_append_left free, apart, Text.trim_append_right free']
  refine Text.trim_eq_self ?_ ?_
  · intro c first
    obtain ⟨d, t, rfl, digit⟩ := items.head
    obtain rfl := Option.some.inj first
    exact isBlank_eq_false_of_isDigit digit
  · intro c last
    have apart : spelled ++ ':' :: (gap ++ digits) = spelled ++ ':' :: gap ++ digits := by simp
    rw [apart, List.getLast?_append_of_ne_nil _ decimal.ne_nil] at last
    exact decimal.solid c (List.mem_of_getLast? last)

/-- A stage of whole numbers is read from what stands for it. -/
theorem Stage.Spelling.read_eq {is : List Item} {n : Nat} {s : List Char}
    (h : Stage.Spelling is n s) (whole : ∀ i ∈ is, i.Whole) (le : wholeNanos is ≤ maxNanos)
    (fits : n ≤ maxUnsigned) : Stage.read s = .ok ⟨⟨wholeNanos is, le⟩, n⟩ := by
  obtain ⟨lead, spelled, gap, digits, trail, lead', items, gap', decimal, trail', rfl⟩ := h
  have timed : Span.read (Text.trim spelled) = .ok ⟨wholeNanos is, le⟩ :=
    items.trim.read_eq whole rfl
  have aimed : IsDecimal n (Text.trim (gap ++ digits)) := by
    rwa [Text.trim_append_left gap', decimal.trim_eq]
  exact Stage.read_eq_ok_iff.mpr ⟨spelled, gap ++ digits,
    Stage.trim_spelling lead' items decimal trail', items.ne_colon, timed, aimed, fits⟩

/-- The text of a stage means what it says. A text that is read as one has a colon; the items before
its first colon have the stage's duration as their exact sum, or a bare zero stands there, and the
decimal number behind it is the target. Whole numbers of units are read however they are written, if
they add up to a span, with any target of 64 bits behind them. -/
theorem stage_means_its_text :
    (∀ text stage, Stage.parse text = .ok stage →
      ∃ front back, Text.trim text.toList = front ++ ':' :: back ∧ (∀ c ∈ front, c ≠ ':') ∧
        (Text.trim front = ['0'] ∧ stage.duration = .zero ∨
          ∃ is, ItemsSpelling is (Text.trim front) ∧
            (stage.duration.nanos : Rat) = exactNanos is) ∧
        IsDecimal stage.target (Text.trim back) ∧ stage.target ≤ maxUnsigned) ∧
    ∀ (text : String) is n, Stage.Spelling is n text.toList → (∀ i ∈ is, i.Whole) →
      wholeNanos is ≤ maxNanos → n ≤ maxUnsigned →
      ∃ stage, Stage.parse text = .ok stage ∧ stage.duration.nanos = wholeNanos is ∧
        stage.target = n := by
  refine ⟨?_, ?_⟩
  · intro text stage parsed
    obtain ⟨front, back, whole, plain, timed, aimed, fits⟩ := Stage.read_eq_ok_iff.mp parsed
    refine ⟨front, back, whole, plain, ?_, aimed, fits⟩
    rcases read_trim_eq_ok_iff.mp timed with bare | ⟨is, items, -, added⟩
    · exact .inl bare
    · exact .inr ⟨is, items, items.nanos_eq added⟩
  · intro text is n spelled whole le fits
    exact ⟨_, spelled.read_eq whole le fits, rfl, rfl⟩

/-- An hour and a half, written with blanks all over, and half a second as a fraction. -/
theorem spaced_stage_means_its_text :
    (∃ stage, Stage.parse "\t1 h3 0min :\u00a0+007\n" = .ok stage ∧
      stage.duration.nanos = 5400000000000 ∧ stage.target = 7) ∧
    ∃ front back, Text.trim "0.5s:3".toList = front ++ ':' :: back ∧ (∀ c ∈ front, c ≠ ':') ∧
      (Text.trim front = ['0'] ∧ (⟨500000000, by decide⟩ : Span) = .zero ∨
        ∃ is, ItemsSpelling is (Text.trim front) ∧ ((500000000 : Nat) : Rat) = exactNanos is) ∧
      IsDecimal 3 (Text.trim back) ∧ 3 ≤ maxUnsigned := by
  have hour : Item.Spelling ⟨1, none, .hour⟩ "1 h".toList :=
    ⟨'1', [' '], [], ['h'], by decide, by decide, by decide, .none, by decide, rfl⟩
  have minutes : Item.Spelling ⟨30, none, .minute⟩ "3 0min".toList :=
    ⟨'3', [' ', '0'], [], ['m', 'i', 'n'], by decide, by decide, by decide, .none, by decide, rfl⟩
  have half : ItemsSpelling [⟨30, none, .minute⟩] ("3 0min".toList ++ [' ']) :=
    .last minutes (by decide)
  have items : ItemsSpelling [⟨1, none, .hour⟩, ⟨30, none, .minute⟩]
      ("1 h".toList ++ ([] ++ ("3 0min".toList ++ [' ']))) := .next hour (by decide) half
  have seven : IsDecimal 7 "+007".toList :=
    ⟨['0', '0', '7'], by decide, List.all_eq_true.mp (by decide), by decide, .inr rfl⟩
  have spelled : Stage.Spelling [⟨1, none, .hour⟩, ⟨30, none, .minute⟩] 7
      "\t1 h3 0min :\u00a0+007\n".toList :=
    ⟨['\t'], _, ['\u00a0'], _, ['\n'], by decide, items, by decide, seven, by decide, rfl⟩
  refine ⟨stage_means_its_text.2 _ _ 7 spelled ?_ (by decide) (by decide), ?_⟩
  · intro i member
    obtain rfl | rfl := by simpa using member
    · exact ⟨rfl, nofun⟩
    · exact ⟨rfl, nofun⟩
  · exact stage_means_its_text.1 "0.5s:3" ⟨⟨500000000, by decide⟩, 3⟩ (by decide +kernel)

end SearchLoad
