import Nose.Proof.ConfigFiles

namespace Nose

open CMemory

/-- A read takes the bytes before a newline first. -/
theorem fgetsLoop_append {line : List UInt8} (plain : newline ∉ line) (count : Nat) (rest : List UInt8) :
    fgetsLoop (line.length + count) (line ++ rest) =
      (line ++ (fgetsLoop count rest).1, (fgetsLoop count rest).2) := by
  induction line with
  | nil => simp
  | cons c line ih =>
      rw [List.mem_cons, not_or] at plain
      rw [List.length_cons, Nat.add_right_comm, List.cons_append, fgetsLoop, if_neg (Ne.symm plain.1), ih plain.2]
      rfl

theorem fgetsLoop_line {count : Nat} {line : List UInt8} (rest : List UInt8) (plain : newline ∉ line)
    (short : line.length < count) : fgetsLoop count (line ++ newline :: rest) = (line ++ [newline], rest, false) := by
  obtain ⟨left, rfl⟩ := Nat.exists_eq_add_of_lt short
  rw [Nat.add_assoc, fgetsLoop_append plain, fgetsLoop, if_pos rfl]

theorem fgetsLoop_last {count : Nat} {line : List UInt8} (plain : newline ∉ line) (short : line.length < count) :
    fgetsLoop count line = (line, [], true) := by
  obtain ⟨left, rfl⟩ := Nat.exists_eq_add_of_lt short
  have read := fgetsLoop_append plain (left + 1) []
  rwa [List.append_nil, fgetsLoop, List.append_nil, ← Nat.add_assoc] at read

/-- A line without a newline fits into the line buffer together with one. -/
def Fits (line : List UInt8) : Prop := newline ∉ line ∧ line.length < maxConf - 1

/-- Every read takes one line, and the last read takes what follows the last newline. -/
theorem confReads_lines {reads : Nat} {lines : List (List UInt8)} {tail : List UInt8}
    (enough : (lines.flatMap (· ++ [newline]) ++ tail).length < reads) (fits : ∀ line ∈ lines, Fits line)
    (last : Fits tail) :
    confReads reads (lines.flatMap (· ++ [newline]) ++ tail) = lines.map (· ++ [newline]) ++ [tail] := by
  induction lines generalizing reads with
  | nil =>
      obtain ⟨reads, rfl⟩ := Nat.exists_eq_add_of_lt enough
      rw [List.flatMap_nil, List.nil_append, confReads, fgets, fgetsLoop_last last.1 last.2]
      rfl
  | cons line lines ih =>
      have here := fits line List.mem_cons_self
      have file : (line :: lines).flatMap (· ++ [newline]) ++ tail =
          line ++ newline :: (lines.flatMap (· ++ [newline]) ++ tail) := by simp
      rw [file, List.length_append, List.length_cons] at enough
      obtain ⟨reads, rfl⟩ : ∃ fewer, reads = fewer + 1 := ⟨reads - 1, by omega⟩
      rw [file, confReads, fgets, fgetsLoop_line _ here.1 here.2,
        ih (by omega) fun other member => fits other (List.mem_cons_of_mem line member)]
      rfl

/-- The line of a setting. -/
def lineOf (pair : List UInt8 × List UInt8) : List UInt8 := pair.1 ++ equals :: pair.2

/-- The key and the value do not disturb the form of their line, and the line fits into the line buffer. -/
structure Plain (pair : List UInt8 × List UInt8) : Prop where
  named : pair.1 ≠ []
  keyEquals : equals ∉ pair.1
  keyNewline : newline ∉ pair.1
  keyNul : 0 ∉ pair.1
  valueNewline : newline ∉ pair.2
  valueNul : 0 ∉ pair.2
  short : (lineOf pair).length ≤ 1022

/-- Every line ends with a newline, except that the last one may end with the file. -/
def fileOf (pairs : List (List UInt8 × List UInt8)) (ended : Bool) : List UInt8 :=
  let lines := pairs.flatMap fun pair => lineOf pair ++ [newline]
  if ended then lines else lines.dropLast

section Setting

variable {pair : List UInt8 × List UInt8} (plain : Plain pair)

include plain

theorem fits_lineOf : Fits (lineOf pair) := by
  have different : newline ≠ equals := by decide
  exact ⟨by simp [lineOf, plain.keyNewline, plain.valueNewline, different], Nat.lt_succ_of_le plain.short⟩

theorem cstr_lineOf : cstr (lineOf pair) = lineOf pair := by
  have different : 0 ≠ equals := by decide
  exact cstr_plain (by simp [lineOf, plain.keyNul, plain.valueNul, different])

theorem cstr_lineOf_newline : cstr (lineOf pair ++ [newline]) = lineOf pair ++ [newline] := by
  have different : 0 ≠ equals := by decide
  have different' : 0 ≠ newline := by decide
  exact cstr_plain (by simp [lineOf, plain.keyNul, plain.valueNul, different, different'])

/-- The line splits at the end of its key. -/
theorem splitPos_lineOf (rest : List UInt8) : splitPos (lineOf pair ++ rest) = pair.1.length := by
  have key : (pair.1 ++ equals :: (pair.2 ++ rest)).takeWhile (· ≠ equals) = pair.1 := by
    rw [List.takeWhile_append_of_pos]
    · simp
    · exact fun byte member => decide_eq_true fun same => plain.keyEquals (same ▸ member)
  rw [splitPos, lineOf, List.append_assoc, List.cons_append, key]

theorem splits_lineOf_newline : Splits (lineOf pair ++ [newline]) := by
  rw [Splits, splitPos_lineOf plain]
  simp [lineOf]

theorem splits_lineOf_iff : Splits (lineOf pair) ↔ pair.2 ≠ [] := by
  have split := splitPos_lineOf plain []
  rw [List.append_nil] at split
  rw [Splits, split, ← List.length_pos_iff]
  simp [lineOf]
  omega

theorem itemOf_lineOf_newline : itemOf (lineOf pair ++ [newline]) = ⟨pair.1, pair.2⟩ := by
  have drop : (lineOf pair ++ [newline]).drop (pair.1.length + 1) = pair.2 ++ [newline] := by
    simp [lineOf]
  have length : (lineOf pair ++ [newline]).length - pair.1.length - 2 = pair.2.length := by
    simp [lineOf]
  have key : (lineOf pair ++ [newline]).take pair.1.length = pair.1 := by simp [lineOf]
  rw [itemOf, splitPos_lineOf plain, drop, length, key, List.take_left]

/-- The last byte of an unfinished line is lost. -/
theorem itemOf_lineOf : itemOf (lineOf pair) = ⟨pair.1, pair.2.dropLast⟩ := by
  have split := splitPos_lineOf plain []
  rw [List.append_nil] at split
  have drop : (lineOf pair).drop (pair.1.length + 1) = pair.2 := by simp [lineOf]
  have length : (lineOf pair).length - pair.1.length - 2 = pair.2.length - 1 := by
    simp [lineOf]
  have key : (lineOf pair).take pair.1.length = pair.1 := by simp [lineOf]
  rw [itemOf, split, drop, length, key, List.dropLast_eq_take]

end Setting

theorem textsOf_append (first second : List (List UInt8)) :
    textsOf (first ++ second) = textsOf first ++ textsOf second := by simp [textsOf]

section Finished

variable {pairs : List (List UInt8 × List UInt8)} (plain : ∀ pair ∈ pairs, Plain pair)

include plain

theorem fits_finished : ∀ line ∈ pairs.map lineOf, Fits line := by
  intro line member
  obtain ⟨pair, inside, rfl⟩ := List.mem_map.mp member
  exact fits_lineOf (plain pair inside)

/-- The lines of finished settings are read as they were written. -/
theorem textsOf_finished :
    textsOf (pairs.map fun pair => lineOf pair ++ [newline]) = pairs.map fun pair => lineOf pair ++ [newline] := by
  induction pairs with
  | nil => rfl
  | cons pair pairs ih =>
      have line := cstr_lineOf_newline (plain pair List.mem_cons_self)
      have nonempty : cstr (lineOf pair ++ [newline]) ≠ [] := by simp [line]
      have later := ih fun other member => plain other (List.mem_cons_of_mem pair member)
      rw [List.map_cons, textsOf_nonempty nonempty, line, later]

theorem splits_finished : ∀ line ∈ pairs.map fun pair => lineOf pair ++ [newline], Splits line := by
  intro line member
  obtain ⟨pair, inside, rfl⟩ := List.mem_map.mp member
  exact splits_lineOf_newline (plain pair inside)

theorem items_finished :
    (pairs.map fun pair => lineOf pair ++ [newline]).map itemOf = pairs.map fun pair => ⟨pair.1, pair.2⟩ := by
  rw [List.map_map]
  exact List.map_congr_left fun pair inside => itemOf_lineOf_newline (plain pair inside)

end Finished

theorem confLines_ended {pairs : List (List UInt8 × List UInt8)} (plain : ∀ pair ∈ pairs, Plain pair) :
    confLines (fileOf pairs true) = pairs.map fun pair => lineOf pair ++ [newline] := by
  have file : fileOf pairs true = (pairs.map lineOf).flatMap (· ++ [newline]) ++ [] := by
    simp [fileOf, List.flatMap_map]
  rw [confLines, file, confReads_lines (Nat.lt_succ_self _) (fits_finished plain) ⟨by simp, by decide⟩, textsOf_append,
    List.map_map]
  exact (congrArg₂ _ (textsOf_finished plain) rfl).trans (List.append_nil _)

theorem confLines_unended {pairs : List (List UInt8 × List UInt8)} {last : List UInt8 × List UInt8}
    (plain : ∀ pair ∈ pairs ++ [last], Plain pair) :
    confLines (fileOf (pairs ++ [last]) false) = (pairs.map fun pair => lineOf pair ++ [newline]) ++ [lineOf last] := by
  have file : fileOf (pairs ++ [last]) false = (pairs.map lineOf).flatMap (· ++ [newline]) ++ lineOf last := by
    simp [fileOf, List.flatMap_map, ← List.append_assoc]
  have final := plain last (by simp)
  have finished : ∀ pair ∈ pairs, Plain pair := fun pair inside => plain pair (List.mem_append_left _ inside)
  have nonempty : cstr (lineOf last) ≠ [] := by
    rw [cstr_lineOf final, lineOf]
    simp
  rw [confLines, file, confReads_lines (Nat.lt_succ_self _) (fits_finished finished) (fits_lineOf final),
    textsOf_append, List.map_map, textsOf_nonempty nonempty, cstr_lineOf final]
  exact congrArg₂ _ (textsOf_finished finished) rfl

/-- The reader that holds the given settings. -/
def readerOf (stored : List (List UInt8 × List UInt8)) : ConfReader := ⟨stored.map fun pair => ⟨pair.1, pair.2⟩⟩

/-- The first setting with the key is found. -/
theorem getValue_found {size : Nat} {stored : List (List UInt8 × List UInt8)} {key : List UInt8}
    {pair : List UInt8 × List UInt8} (found : stored.find? (fun pair => pair.1 = key) = some pair)
    (value : CharArray size) :
    getValue (readerOf stored) key value = (ok, value.strncpy (block pair.2 fun _ => 0) pair.2.length) := by
  have hit : (readerOf stored).items.find? (fun item => item.key = key) = some ⟨pair.1, pair.2⟩ := by
    rw [readerOf, List.find?_map]
    exact congrArg (Option.map _) found
  rw [getValue, hit]

theorem getValue_missing {size : Nat} {stored : List (List UInt8 × List UInt8)} {key : List UInt8}
    (missing : key ∉ stored.map Prod.fst) (value : CharArray size) :
    getValue (readerOf stored) key value = (failed, value) := by
  have miss : (readerOf stored).items.find? (fun item => item.key = key) = none := by
    rw [List.find?_eq_none]
    intro item member same
    obtain ⟨pair, inside, rfl⟩ := List.mem_map.mp member
    exact missing (List.mem_map.mpr ⟨pair, inside, of_decide_eq_true same⟩)
  rw [getValue, miss]

theorem readConf_ended {pairs : List (List UInt8 × List UInt8)} (few : pairs.length ≤ maxConf)
    (plain : ∀ pair ∈ pairs, Plain pair) : readConf (fileOf pairs true) = some (ok, readerOf pairs) := by
  have lines := confLines_ended plain
  have parses : Parses 0 (confLines (fileOf pairs true)) := by
    rw [lines]
    exact ⟨splits_finished plain, by simpa using few⟩
  rw [readConf, (confParser_stored parses).1, lines, items_finished plain]
  rfl

section Unended

variable {pairs : List (List UInt8 × List UInt8)} {last : List UInt8 × List UInt8}
  (plain : ∀ pair ∈ pairs ++ [last], Plain pair)

include plain

/-- The value of an unfinished last line is read without its last byte. -/
theorem readConf_unended (few : (pairs ++ [last]).length ≤ maxConf) (nonempty : last.2 ≠ []) :
    readConf (fileOf (pairs ++ [last]) false) = some (ok, readerOf (pairs ++ [(last.1, last.2.dropLast)])) := by
  have lines := confLines_unended plain
  have final := plain last (by simp)
  have finished : ∀ pair ∈ pairs, Plain pair := fun pair inside => plain pair (List.mem_append_left _ inside)
  have parses : Parses 0 (confLines (fileOf (pairs ++ [last]) false)) := by
    rw [lines]
    refine ⟨?_, by simpa using few⟩
    intro line member
    rcases List.mem_append.mp member with early | late
    · exact splits_finished finished line early
    · rw [List.mem_singleton.mp late]
      exact (splits_lineOf_iff final).mpr nonempty
  rw [readConf, (confParser_stored parses).1, lines, List.map_append, items_finished finished, List.map_singleton,
    itemOf_lineOf final, readerOf, List.map_append]
  rfl

/-- An unfinished last line with an empty value is not read at all. -/
theorem readConf_unended_empty (empty : last.2 = []) : readConf (fileOf (pairs ++ [last]) false) = none := by
  have broken : ¬ Parses 0 (confLines (fileOf (pairs ++ [last]) false)) := by
    rw [confLines_unended plain]
    intro parses
    exact (splits_lineOf_iff (plain last (by simp))).mp (parses.1 _ (by simp)) empty
  rw [readConf, (confParser_stopped broken).1]
  rfl

end Unended

/-- The settings are read back from the file: every key gives its first value, and other keys give nothing. -/
def ConfRoundTrip (pairs : List (List UInt8 × List UInt8)) (file : List UInt8) : Prop :=
  ∃ reader, readConf file = some (ok, reader) ∧ ∀ key, 0 ∉ key →
    (∀ pair, pairs.find? (fun pair => pair.1 = key) = some pair → ∀ size, pair.2.length < size →
      (getValue reader key (Vector.replicate size 0)).1 = ok ∧
        cstr (getValue reader key (Vector.replicate size 0)).2.toList = pair.2) ∧
      (key ∉ pairs.map Prod.fst → ∀ (size : Nat) (value : CharArray size),
        getValue reader key value = (failed, value))

/-- A reader in which every key has its right first value gives the settings back. -/
theorem confRoundTrip_of_reader {pairs stored : List (List UInt8 × List UInt8)} {file : List UInt8}
    (plain : ∀ pair ∈ pairs, Plain pair) (read : readConf file = some (ok, readerOf stored))
    (keys : stored.map Prod.fst = pairs.map Prod.fst)
    (values : ∀ key pair, pairs.find? (fun pair => pair.1 = key) = some pair →
      stored.find? (fun pair => pair.1 = key) = some pair) : ConfRoundTrip pairs file := by
  refine ⟨readerOf stored, read, fun key _ => ⟨?_, ?_⟩⟩
  · intro pair found size large
    have unterminated := (plain pair (List.mem_of_find?_eq_some found)).valueNul
    rw [getValue_found (values key pair found)]
    exact ⟨rfl, CharArray.cstr_strncpy_zeros pair.2 _ large unterminated⟩
  · intro missing size value
    exact getValue_missing (keys ▸ missing) value

/-- The value of a last key that has no earlier value is not the one that was written. -/
theorem not_confRoundTrip_of_cut {pairs : List (List UInt8 × List UInt8)} {last : List UInt8 × List UInt8}
    {file : List UInt8} (plain : Plain last) (nonempty : last.2 ≠ []) (fresh : last.1 ∉ pairs.map Prod.fst)
    (read : readConf file = some (ok, readerOf (pairs ++ [(last.1, last.2.dropLast)]))) :
    ¬ ConfRoundTrip (pairs ++ [last]) file := by
  rintro ⟨reader, same, gives⟩
  obtain rfl : readerOf (pairs ++ [(last.1, last.2.dropLast)]) = reader := by
    rw [read] at same
    exact congrArg Prod.snd (Option.some.inj same)
  have earlier : pairs.find? (fun pair => pair.1 = last.1) = none := by
    rw [List.find?_eq_none]
    intro pair inside equal
    exact fresh (List.mem_map.mpr ⟨pair, inside, of_decide_eq_true equal⟩)
  have written : (pairs ++ [last]).find? (fun pair => pair.1 = last.1) = some last := by
    simp [List.find?_append, earlier]
  have stored : (pairs ++ [(last.1, last.2.dropLast)]).find? (fun pair => pair.1 = last.1) =
      some (last.1, last.2.dropLast) := by
    simp [List.find?_append, earlier]
  have shorter : last.2.dropLast.length < last.2.length + 1 := by
    rw [List.length_dropLast]
    omega
  have value := ((gives last.1 plain.keyNul).1 last written (last.2.length + 1) (Nat.lt_succ_self _)).2
  rw [getValue_found stored, CharArray.cstr_strncpy_zeros last.2.dropLast _ shorter
    fun zero => plain.valueNul (List.mem_of_mem_dropLast zero)] at value
  have length := congrArg List.length value
  have positive := List.length_pos_iff.mpr nonempty
  rw [List.length_dropLast] at length
  omega

/-- A last setting that repeats an earlier key is never found. -/
theorem find?_replaced {pairs : List (List UInt8 × List UInt8)} {last : List UInt8 × List UInt8} {key : List UInt8}
    {pair : List UInt8 × List UInt8} (earlier : last.1 ∈ pairs.map Prod.fst)
    (found : (pairs ++ [last]).find? (fun pair => pair.1 = key) = some pair) (value : List UInt8) :
    (pairs ++ [(last.1, value)]).find? (fun pair => pair.1 = key) = some pair := by
  rw [List.find?_append] at found ⊢
  cases first : pairs.find? (fun pair => pair.1 = key) with
  | some other => rwa [first] at found
  | none =>
      have different : last.1 ≠ key := by
        obtain ⟨other, inside, same⟩ := List.mem_map.mp earlier
        rw [← same]
        exact fun equal => List.find?_eq_none.mp first other inside (decide_eq_true equal)
      simp [first, different] at found

/-- The settings are read back exactly when the file ends with a newline, or its last line repeats an earlier key and
has a value. -/
theorem config_round_trip_iff {pairs : List (List UInt8 × List UInt8)} (few : pairs.length ≤ maxConf)
    (plain : ∀ pair ∈ pairs, Plain pair) (ended : Bool) :
    ConfRoundTrip pairs (fileOf pairs ended) ↔
      (ended = true ∨ ∀ last ∈ pairs.getLast?, last.2 ≠ [] ∧ last.1 ∈ pairs.dropLast.map Prod.fst) := by
  cases ended with
  | true =>
      have round := confRoundTrip_of_reader plain (readConf_ended few plain) rfl fun _ _ found => found
      simpa using round
  | false =>
      rcases List.eq_nil_or_concat' pairs with rfl | ⟨init, last, rfl⟩
      · have round : ConfRoundTrip [] (fileOf [] false) :=
          confRoundTrip_of_reader plain (readConf_ended few plain) rfl fun _ _ found => found
        simpa using round
      · rw [List.getLast?_concat, List.dropLast_concat]
        constructor
        · intro round
          by_cases empty : last.2 = []
          · obtain ⟨_, read, _⟩ := round
            rw [readConf_unended_empty plain empty] at read
            cases read
          · right
            rintro _ ⟨⟩
            refine ⟨empty, ?_⟩
            by_contra fresh
            exact not_confRoundTrip_of_cut (plain last (by simp)) empty fresh (readConf_unended plain few empty) round
        · rintro (ended | repeated)
          · cases ended
          · obtain ⟨nonempty, earlier⟩ := repeated last rfl
            exact confRoundTrip_of_reader plain (readConf_unended plain few nonempty) (by simp)
              fun _ _ found => find?_replaced earlier found _

/-- A file whose last line is not ended loses the last byte of its last value. -/
theorem config_unended_cut : ¬ ∀ (pairs : List (List UInt8 × List UInt8)) (ended : Bool),
    pairs.length ≤ maxConf → (∀ pair ∈ pairs, Plain pair) → ConfRoundTrip pairs (fileOf pairs ended) := by
  intro claim
  have plain : ∀ pair ∈ [(ascii "key", ascii "abc")], Plain pair := by
    intro pair member
    rw [List.mem_singleton.mp member]
    constructor <;> decide
  have read : readConf (fileOf [(ascii "key", ascii "abc")] false) =
      some (ok, readerOf ([] ++ [(ascii "key", (ascii "abc").dropLast)])) := by decide
  exact not_confRoundTrip_of_cut (plain _ List.mem_cons_self) (by decide) (by simp) read
    (claim _ false (by decide) plain)

/-- The last line of this file is not ended and repeats a key. -/
theorem config_round_trip_sample :
    ConfRoundTrip [(ascii "key", ascii "abc"), (ascii "port", []), (ascii "key", ascii "d")]
      (fileOf [(ascii "key", ascii "abc"), (ascii "port", []), (ascii "key", ascii "d")] false) := by
  have plain : ∀ pair ∈ [(ascii "key", ascii "abc"), (ascii "port", []), (ascii "key", ascii "d")], Plain pair := by
    intro pair member
    simp only [List.mem_cons, List.not_mem_nil, or_false] at member
    rcases member with rfl | rfl | rfl <;> constructor <;> decide
  refine (config_round_trip_iff (by decide) plain false).mpr (Or.inr ?_)
  rintro _ ⟨⟩
  decide

end Nose
