import Nose.Proof.PmpCodec
import Nose.Source.ConfReader

namespace Nose

open CMemory

/-- A read takes the first bytes of the file, at most as many as it was asked for, and at least one unless it meets the
end of the file. -/
theorem fgetsLoop_facts (count : Nat) (file : List UInt8) :
    (fgetsLoop count file).1 ++ (fgetsLoop count file).2.1 = file ∧ (fgetsLoop count file).1.length ≤ count ∧
      ((fgetsLoop count file).2.2 = true → (fgetsLoop count file).2.1 = []) ∧
        (0 < count → (fgetsLoop count file).2.2 = false → 0 < (fgetsLoop count file).1.length) := by
  induction count generalizing file with
  | zero => simp [fgetsLoop]
  | succ count ih =>
      cases file with
      | nil => simp [fgetsLoop]
      | cons c file =>
          obtain ⟨joined, short, ended, _⟩ := ih file
          rw [fgetsLoop]
          split
          · simp
          · refine ⟨?_, ?_, ended, fun _ _ => by simp⟩
            · simp [joined]
            · simpa using short

/-- The reads of a file take all of its bytes. -/
theorem flatten_confReads {reads : Nat} {file : List UInt8} (enough : file.length < reads) :
    (confReads reads file).flatten = file := by
  induction reads generalizing file with
  | zero => omega
  | succ reads ih =>
      obtain ⟨joined, _, ended, taken⟩ := fgetsLoop_facts (maxConf - 1) file
      rw [confReads, fgets]
      by_cases last : (fgetsLoop (maxConf - 1) file).2.2 = true
      · rw [if_pos last, List.flatten_cons, List.flatten_nil, ← ended last]
        exact joined
      · have progress := taken (by decide) (by simpa using last)
        have shorter := congrArg List.length joined
        rw [List.length_append] at shorter
        rw [if_neg last, List.flatten_cons, ih (by omega)]
        exact joined

/-- Every line fits into the line buffer with its terminator. -/
theorem length_confReads {reads : Nat} {file buffer : List UInt8} (read : buffer ∈ confReads reads file) :
    buffer.length ≤ 1023 := by
  induction reads generalizing file with
  | zero => simp [confReads] at read
  | succ reads ih =>
      have short := (fgetsLoop_facts (maxConf - 1) file).2.1
      rw [confReads, fgets] at read
      split at read
      · obtain rfl := List.mem_singleton.mp read
        exact short
      · rcases List.mem_cons.mp read with rfl | later
        · exact short
        · exact ih later

/-- The texts of the lines that are not empty. -/
def textsOf (buffers : List (List UInt8)) : List (List UInt8) := (buffers.map cstr).filter (· ≠ [])

/-- The lines of a file, each up to its first terminator. -/
def confLines (file : List UInt8) : List (List UInt8) := textsOf (confReads (file.length + 1) file)

/-- The line has an equals sign and another byte after it. -/
def Splits (line : List UInt8) : Prop := splitPos line + 2 ≤ line.length

/-- The last byte of a line is not part of its value. -/
def itemOf (line : List UInt8) : ConfItem :=
  ⟨line.take (splitPos line), (line.drop (splitPos line + 1)).take (line.length - splitPos line - 2)⟩

theorem length_value_itemOf (line : List UInt8) :
    (itemOf line).value.length = line.length - splitPos line - 2 := by
  simp only [itemOf, List.length_take, List.length_drop]
  omega

/-- A copy stays inside the line buffer, inside the array of items, or inside its destination. -/
def ConfCopy.Safe : ConfCopy → Prop
  | .key count => count ≤ 1023
  | .value offset count => count ≤ 1023 ∧ offset + count ≤ maxConf
  | .item slot => slot < maxConf
  | .out capacity count => count ≤ capacity

theorem splitPos_le (line : List UInt8) : splitPos line ≤ line.length := (List.takeWhile_sublist _).length_le

section Line

/-- The count of the copied value does not wrap around when the line splits. -/
theorem valueCount_of_splits {line : List UInt8} (short : line.length ≤ 1023) (splits : Splits line) :
    sizeT (line.length - splitPos line - 2) = line.length - splitPos line - 2 := by
  unfold Splits at splits
  unfold sizeT
  omega

/-- A line without an equals sign, or with nothing after it, makes the difference wrap around. -/
theorem valueCount_of_wraps {line : List UInt8} (wraps : ¬ Splits line) :
    maxConf < sizeT (line.length - splitPos line - 2) := by
  have split := splitPos_le line
  unfold Splits at wraps
  unfold sizeT maxConf
  omega

variable (reader : ConfReader) {buffer : List UInt8} (short : buffer.length ≤ 1023) (nonempty : cstr buffer ≠ [])

include short nonempty

theorem parseLine_stored (splits : Splits (cstr buffer)) (room : reader.items.length < maxConf) :
    ∃ copies, parseLine reader buffer = (some ⟨reader.items ++ [itemOf (cstr buffer)]⟩, copies) ∧
      ∀ copy ∈ copies, copy.Safe := by
  have length := (length_cstr_le buffer).trans short
  have positive := List.length_pos_iff.mpr nonempty
  have count := valueCount_of_splits length splits
  unfold maxConf at room
  refine ⟨[.key (splitPos (cstr buffer)),
    .value (splitPos (cstr buffer) + 1) ((cstr buffer).length - splitPos (cstr buffer) - 2),
    .item reader.items.length], ?_, ?_⟩
  · rw [parseLine]
    dsimp only
    rw [count, if_neg (by omega), if_neg (by unfold maxConf; omega), if_neg (by unfold maxConf; omega)]
    rfl
  · unfold Splits at splits
    intro copy member
    simp only [List.mem_cons, List.not_mem_nil, or_false] at member
    rcases member with rfl | rfl | rfl
    · simp only [ConfCopy.Safe]
      omega
    · simp only [ConfCopy.Safe, maxConf]
      omega
    · exact room

omit short in
/-- The copy of the value leaves the line when its count wraps around. -/
theorem parseLine_wrapped (wraps : ¬ Splits (cstr buffer)) :
    (parseLine reader buffer).1 = none ∧ ∃ copy ∈ (parseLine reader buffer).2, ¬ copy.Safe := by
  have positive := List.length_pos_iff.mpr nonempty
  have count := valueCount_of_wraps wraps
  rw [parseLine]
  dsimp only
  rw [if_neg (by omega), if_pos count]
  refine ⟨rfl, _, List.mem_cons_of_mem _ List.mem_cons_self, fun safe => ?_⟩
  have bounded := safe.1
  unfold maxConf at count
  omega

/-- A line too many is stored behind the array of items. -/
theorem parseLine_full (splits : Splits (cstr buffer)) (full : maxConf ≤ reader.items.length) :
    (parseLine reader buffer).1 = none ∧ ∃ copy ∈ (parseLine reader buffer).2, ¬ copy.Safe := by
  have length := (length_cstr_le buffer).trans short
  have positive := List.length_pos_iff.mpr nonempty
  have count := valueCount_of_splits length splits
  rw [parseLine]
  dsimp only
  rw [if_neg (by omega), if_neg (by unfold maxConf; omega), if_pos full]
  refine ⟨rfl, .item reader.items.length, by simp, fun safe => ?_⟩
  have below : reader.items.length < maxConf := safe
  omega

end Line

/-- Every line splits, and the array of items has room for all of them. -/
def Parses (stored : Nat) (lines : List (List UInt8)) : Prop :=
  (∀ line ∈ lines, Splits line) ∧ stored + lines.length ≤ maxConf

theorem textsOf_empty {buffer : List UInt8} (empty : cstr buffer = []) (rest : List (List UInt8)) :
    textsOf (buffer :: rest) = textsOf rest := by simp [textsOf, empty]

theorem textsOf_nonempty {buffer : List UInt8} (nonempty : cstr buffer ≠ []) (rest : List (List UInt8)) :
    textsOf (buffer :: rest) = cstr buffer :: textsOf rest := by simp [textsOf, nonempty]

theorem parseLines_empty {buffer : List UInt8} (empty : cstr buffer = []) (reader : ConfReader)
    (rest : List (List UInt8)) : parseLines reader (buffer :: rest) = parseLines reader rest := by
  simp [parseLines, parseLine, empty]

/-- The reader takes an item from every line that is not empty. -/
theorem parseLines_stored (reader : ConfReader) {buffers : List (List UInt8)}
    (short : ∀ buffer ∈ buffers, buffer.length ≤ 1023) (parses : Parses reader.items.length (textsOf buffers)) :
    (parseLines reader buffers).1 = some ⟨reader.items ++ (textsOf buffers).map itemOf⟩ ∧
      ∀ copy ∈ (parseLines reader buffers).2, copy.Safe := by
  induction buffers generalizing reader with
  | nil => simp [textsOf, parseLines]
  | cons buffer rest ih =>
      have later := fun member inside => short member (List.mem_cons_of_mem buffer inside)
      by_cases empty : cstr buffer = []
      · rw [textsOf_empty empty] at parses ⊢
        rw [parseLines_empty empty]
        exact ih reader later parses
      · rw [textsOf_nonempty empty] at parses ⊢
        obtain ⟨splits, room⟩ := parses
        rw [List.length_cons] at room
        obtain ⟨copies, stored, safe⟩ := parseLine_stored reader (short buffer List.mem_cons_self) empty
          (splits _ List.mem_cons_self) (by omega)
        have tail : Parses (reader.items ++ [itemOf (cstr buffer)]).length (textsOf rest) := by
          refine ⟨fun line inside => splits line (List.mem_cons_of_mem _ inside), ?_⟩
          rw [List.length_append, List.length_singleton]
          omega
        obtain ⟨items, safe'⟩ := ih ⟨reader.items ++ [itemOf (cstr buffer)]⟩ later tail
        rw [parseLines, stored]
        refine ⟨?_, fun copy inside => (List.mem_append.mp inside).elim (safe copy) (safe' copy)⟩
        rw [items, List.append_assoc]
        rfl

/-- A copy goes wrong at the first line that does not split or finds no room. -/
theorem parseLines_stopped (reader : ConfReader) {buffers : List (List UInt8)}
    (short : ∀ buffer ∈ buffers, buffer.length ≤ 1023) (room : reader.items.length ≤ maxConf)
    (broken : ¬ Parses reader.items.length (textsOf buffers)) :
    (parseLines reader buffers).1 = none ∧ ∃ copy ∈ (parseLines reader buffers).2, ¬ copy.Safe := by
  induction buffers generalizing reader with
  | nil => exact absurd ⟨by simp [textsOf], by simpa [textsOf] using room⟩ broken
  | cons buffer rest ih =>
      have here := short buffer List.mem_cons_self
      have later := fun member inside => short member (List.mem_cons_of_mem buffer inside)
      by_cases empty : cstr buffer = []
      · rw [textsOf_empty empty] at broken
        rw [parseLines_empty empty]
        exact ih reader later room broken
      · rw [textsOf_nonempty empty] at broken
        by_cases splits : Splits (cstr buffer)
        · by_cases full : maxConf ≤ reader.items.length
          · obtain ⟨stopped, wrong⟩ := parseLine_full reader here empty splits full
            rw [parseLines, stopped]
            exact ⟨stopped, wrong⟩
          · obtain ⟨copies, stored, _⟩ := parseLine_stored reader here empty splits (not_le.mp full)
            have grown : (reader.items ++ [itemOf (cstr buffer)]).length = reader.items.length + 1 := by simp
            have tail : ¬ Parses (reader.items ++ [itemOf (cstr buffer)]).length (textsOf rest) := by
              rintro ⟨all, fits⟩
              refine broken ⟨List.forall_mem_cons.mpr ⟨splits, all⟩, ?_⟩
              rw [List.length_cons]
              omega
            obtain ⟨stopped, copy, inside, wrong⟩ :=
              ih ⟨reader.items ++ [itemOf (cstr buffer)]⟩ later (by simp only; omega) tail
            rw [parseLines, stored]
            exact ⟨stopped, copy, List.mem_append_right _ inside, wrong⟩
        · obtain ⟨stopped, wrong⟩ := parseLine_wrapped reader empty splits
          rw [parseLines, stopped]
          exact ⟨stopped, wrong⟩

/-- The parser takes an item from every line of the file that is not empty. -/
theorem confParser_stored {file : List UInt8} (parses : Parses 0 (confLines file)) :
    (confParser file).1 = some ⟨(confLines file).map itemOf⟩ ∧ ∀ copy ∈ (confParser file).2, copy.Safe := by
  rw [confParser]
  exact parseLines_stored _ (fun _ => length_confReads) parses

theorem confParser_stopped {file : List UInt8} (broken : ¬ Parses 0 (confLines file)) :
    (confParser file).1 = none ∧ ∃ copy ∈ (confParser file).2, ¬ copy.Safe :=
  parseLines_stopped _ (fun _ => length_confReads) (Nat.zero_le _) broken

/-- The first line with a searched key fits into the destination of its value. -/
def FitsAll (mode : WorkMode) (lines : List (List UInt8)) : Prop :=
  ∀ search ∈ mode.destinations, ∀ line, lines.find? (fun line => line.take (splitPos line) = search.1) = some line →
    line.length - splitPos line - 2 ≤ search.2

theorem getValueCopy_safe_iff (lines : List (List UInt8)) (key : List UInt8) (capacity : Nat) :
    (∀ copy ∈ getValueCopy ⟨lines.map itemOf⟩ key capacity, copy.Safe) ↔
      ∀ line, lines.find? (fun line => line.take (splitPos line) = key) = some line →
        line.length - splitPos line - 2 ≤ capacity := by
  rw [getValueCopy, List.find?_map]
  cases found : lines.find? ((fun item => decide (item.key = key)) ∘ itemOf) with
  | none =>
      have missed : lines.find? (fun line => line.take (splitPos line) = key) = none := found
      simp [missed]
  | some line =>
      have hit : lines.find? (fun line => line.take (splitPos line) = key) = some line := found
      simp [hit, ConfCopy.Safe, length_value_itemOf]

/-- No copy of the start goes wrong exactly when every line of the file splits, there are at most as many lines as
items, and the values that `main` asks for fit into their destinations. -/
theorem config_safe_iff (mode : WorkMode) (file : List UInt8) :
    (∀ copy ∈ configure mode file, copy.Safe) ↔ Parses 0 (confLines file) ∧ FitsAll mode (confLines file) := by
  by_cases parses : Parses 0 (confLines file)
  · obtain ⟨stored, safe⟩ := confParser_stored parses
    have searched : configure mode file = (confParser file).2 ++ mode.destinations.flatMap fun search =>
        getValueCopy ⟨(confLines file).map itemOf⟩ search.1 search.2 := by
      rw [configure, stored]
    rw [searched]
    constructor
    · intro all
      refine ⟨parses, fun search member => (getValueCopy_safe_iff _ _ _).mp fun copy inside => all copy ?_⟩
      exact List.mem_append_right _ (List.mem_flatMap.mpr ⟨search, member, inside⟩)
    · intro condition copy inside
      rcases List.mem_append.mp inside with early | late
      · exact safe copy early
      · obtain ⟨search, member, found⟩ := List.mem_flatMap.mp late
        exact (getValueCopy_safe_iff _ _ _).mpr (condition.2 search member) copy found
  · obtain ⟨_, copy, inside, wrong⟩ := confParser_stopped parses
    constructor
    · intro safe
      exact absurd (safe copy (List.mem_append_left _ inside)) wrong
    · exact fun condition => absurd condition.1 parses

/-- A blank line between two settings makes a copy go wrong. -/
theorem blank_line_overruns :
    ¬ ∀ (mode : WorkMode) (file : List UInt8), ∀ copy ∈ configure mode file, copy.Safe := by
  intro claim
  have inside : ConfCopy.value 2 (2 ^ 64 - 2) ∈ configure .peer (ascii "source_port=1\n\nkey=abc\n") := by decide
  have bounded := (claim .peer _ _ inside).1
  omega

end Nose
